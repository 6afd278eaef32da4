/-
# The comparator is exact

Two frames of one size are compared cell by cell, and a wide character changes as one: the pass
that pairs its halves goes once from left to right. Where wide characters of the two frames
overlap, the cell they share differs by itself, so one pass is enough. The count, the rows, the
runs and the box are all read off the mask, and each is what the mask says.
-/

import Shux.Vt.FrameDiff

namespace Shux.Vt

open List

/-- Wide characters are whole: each has its continuation beside it, in its row, and every
continuation belongs to one. -/
structure CellGridView.WholePairs (v : CellGridView) : Prop where
  head : ∀ r < v.rows, ∀ c < v.cols, (v.cell r c).isWide = true →
    c + 1 < v.cols ∧ (v.cell r (c + 1)).isWideContinuation = true
  tail : ∀ r < v.rows, ∀ c < v.cols, (v.cell r c).isWideContinuation = true →
    0 < c ∧ (v.cell r (c - 1)).isWide = true

/-- Two columns are the halves of a wide character of a row. -/
def CellGridView.Halves (v : CellGridView) (r c d : Nat) : Prop :=
  (v.cell r c).isWide = true ∧ d = c + 1 ∨ (v.cell r d).isWide = true ∧ c = d + 1

/-- A cell differs in value, or has a default colour on both sides that stands for another one. -/
def CellDiffers (a b : CellGridView) (r c : Nat) : Prop :=
  a.cell r c ≠ b.cell r c ∨
    (a.defaults.fg ≠ b.defaults.fg ∧ (a.cell r c).style.fg = .default ∧
      (b.cell r c).style.fg = .default) ∨
    (a.defaults.bg ≠ b.defaults.bg ∧ (a.cell r c).style.bg = .default ∧
      (b.cell r c).style.bg = .default)

/-- A cell differs, or the other half of a wide character it belongs to does. -/
def CellChanges (a b : CellGridView) (r c : Nat) : Prop :=
  CellDiffers a b r c ∨ ∃ d < a.cols, (a.Halves r c d ∨ b.Halves r c d) ∧ CellDiffers a b r d

theorem cellsDiffer_iff (a b : CellGridView) (r c : Nat) :
    cellsDiffer (a.defaults.fg != b.defaults.fg) (a.defaults.bg != b.defaults.bg) (a.cell r c)
      (b.cell r c) = true ↔ CellDiffers a b r c := by
  simp [cellsDiffer, CellDiffers, and_assoc, or_assoc]

section Pass

variable {wide changed : List Bool} {cols : Nat}

/-- A flag of a row of flags; unset past its end. -/
def flag (flags : List Bool) (c : Nat) : Bool := flags.getD c false

theorem flag_eq_true_iff {flags : List Bool} {c : Nat} :
    flag flags c = true ↔ flags[c]? = some true := by
  rw [flag, getD_eq_getElem?_getD]
  cases flags[c]? with
  | none => simp
  | some b => simp

theorem flag_set {flags : List Bool} {c : Nat} (h : c < flags.length) (i : Nat) :
    flag (flags.set c true) i = (flag flags i || decide (i = c)) := by
  unfold flag
  rw [getD_eq_getElem?_getD, getD_eq_getElem?_getD]
  by_cases hi : i = c
  · subst hi
    simp [h]
  · rw [List.getElem?_set_ne (Ne.symm hi)]
    simp [hi]

theorem flag_map_range (f : Nat → Bool) (n c : Nat) :
    flag ((List.range n).map f) c = (decide (c < n) && f c) := by
  unfold flag
  rw [getD_eq_getElem?_getD, List.getElem?_map]
  by_cases hc : c < n
  · simp [hc]
  · simp [hc]

/-- How far the pass over the pairs has come: behind it a flag stands for both halves. -/
structure PairedTo (wide changed now : List Bool) (k : Nat) : Prop where
  length : now.length = changed.length
  behind : ∀ i, i < k → flag now i = (flag changed i || flag wide i && flag changed (i + 1) ||
    decide (0 < i) && flag wide (i - 1) && flag changed (i - 1))
  here : flag now k = (flag changed k || decide (0 < k) && flag wide (k - 1) &&
    flag changed (k - 1))
  ahead : ∀ i, k < i → flag now i = flag changed i

theorem PairedTo.step {now : List Bool} {k : Nat} (h : PairedTo wide changed now k)
    (hk : k + 1 < changed.length)
    (hoverlap : 0 < k → flag wide (k - 1) = true → flag wide k = true → flag changed k = true) :
    PairedTo wide changed (if flag wide k && (flag now k || flag now (k + 1))
      then (now.set k true).set (k + 1) true else now) (k + 1) := by
  have hlen := h.length
  have hhere := h.here
  have hnext := h.ahead (k + 1) (Nat.lt_succ_self k)
  -- an overlap shows in the cell that is shared
  have hboth : flag wide k = true → (flag now k || flag now (k + 1)) =
      (flag changed k || flag changed (k + 1)) := by
    intro hwide
    rw [hhere, hnext]
    by_cases hprev : 0 < k ∧ flag wide (k - 1) = true
    · rw [hoverlap hprev.1 hprev.2 hwide]
      simp
    · cases hleft : flag wide (k - 1) <;> simp_all
  have hflag (i : Nat) : flag (if flag wide k && (flag now k || flag now (k + 1))
      then (now.set k true).set (k + 1) true else now) i =
        (flag now i || flag wide k && (flag changed k || flag changed (k + 1)) &&
          (decide (i = k) || decide (i = k + 1))) := by
    cases hwide : flag wide k with
    | false => simp
    | true =>
      rw [hboth hwide, Bool.true_and]
      cases hchanged : flag changed k || flag changed (k + 1) with
      | false => simp
      | true =>
        rw [if_pos rfl, flag_set (by rw [length_set]; omega), flag_set (by omega)]
        simp [Bool.or_assoc]
  refine ⟨?_, fun i hi => ?_, ?_, fun i hi => ?_⟩
  · split
    · rw [length_set, length_set, hlen]
    · exact hlen
  · rw [hflag]
    by_cases hik : i = k
    · subst hik
      rw [hhere]
      cases flag wide i <;> cases flag changed i <;> simp [Bool.or_comm]
    · rw [h.behind i (by omega)]
      simp [hik, show i ≠ k + 1 by omega]
  · rw [hflag, hnext, Nat.add_sub_cancel]
    cases flag wide k <;> cases flag changed k <;> simp
  · rw [hflag, h.ahead i (by omega)]
    simp [show i ≠ k by omega, show i ≠ k + 1 by omega]

/-- Where wide characters overlap the shared cell has changed, so the pass marks both halves of
every one of which a half has. -/
theorem pairedTo_pairChanged (hlen : changed.length = cols)
    (hoverlap : ∀ c, 0 < c → flag wide (c - 1) = true → flag wide c = true →
      flag changed c = true) :
    PairedTo wide changed (pairChanged wide changed cols) (cols - 1) := by
  have hpass : ∀ k ≤ cols - 1, PairedTo wide changed ((List.range k).foldl (fun changed c =>
      if wide.getD c false && (changed.getD c false || changed.getD (c + 1) false)
      then (changed.set c true).set (c + 1) true else changed) changed) k := by
    intro k hk
    induction k with
    | zero => exact ⟨rfl, fun i hi => by omega, by simp, fun i _ => rfl⟩
    | succ k ih =>
      rw [range_succ, foldl_append, foldl_cons, foldl_nil]
      exact (ih (by omega)).step (by omega) (hoverlap k)
  exact hpass (cols - 1) le_rfl

/-- Flags after the pass, when no wide character begins in the last column. -/
theorem flag_pairChanged (hlen : changed.length = cols)
    (hoverlap : ∀ c, 0 < c → flag wide (c - 1) = true → flag wide c = true → flag changed c = true)
    (hlast : ∀ c, flag wide c = true → c + 1 < cols) {c : Nat} (hc : c < cols) :
    flag (pairChanged wide changed cols) c = true ↔ flag changed c = true ∨
      (flag wide c = true ∧ flag changed (c + 1) = true) ∨
      (0 < c ∧ flag wide (c - 1) = true ∧ flag changed (c - 1) = true) := by
  have hpass := pairedTo_pairChanged hlen hoverlap
  by_cases hend : c = cols - 1
  · have hnarrow : flag wide c ≠ true := fun hwide => by
      have := hlast c hwide
      omega
    rw [hend, hpass.here, ← hend]
    simp [hnarrow, and_assoc]
  · rw [hpass.behind c (by omega)]
    simp [and_assoc, or_assoc]

end Pass

section Mask

variable {a b : CellGridView} {r : Nat}

theorem length_pairChanged (wide changed : List Bool) (cols : Nat) :
    (pairChanged wide changed cols).length = changed.length := by
  unfold pairChanged
  generalize List.range (cols - 1) = cs
  induction cs generalizing changed with
  | nil => rfl
  | cons c cs ih =>
    rw [foldl_cons, ih]
    split
    · rw [length_set, length_set]
    · rfl

theorem length_changedRow (a b : CellGridView) (cols r : Nat) :
    (changedRow a b cols r).length = cols := by
  rw [changedRow, length_pairChanged, length_map, length_range]

/-- A cell that is a wide character's first half in one frame and second half in the other. -/
theorem differs_of_overlap (ha : a.WholePairs) (hb : b.WholePairs) (hrows : a.rows = b.rows)
    (hcols : a.cols = b.cols) (hr : r < a.rows) {c : Nat} (hc : c + 1 < a.cols)
    (hleft : (a.cell r c).isWide = true ∨ (b.cell r c).isWide = true)
    (hright : (a.cell r (c + 1)).isWide = true ∨ (b.cell r (c + 1)).isWide = true) :
    CellDiffers a b r (c + 1) := by
  have hcase : ∀ v w : CellGridView, v.WholePairs → w.WholePairs → r < v.rows → r < w.rows →
      c + 1 < v.cols → c + 1 < w.cols → (v.cell r c).isWide = true →
      ((v.cell r (c + 1)).isWide = true ∨ (w.cell r (c + 1)).isWide = true) →
        v.cell r (c + 1) ≠ w.cell r (c + 1) := by
    intro v w hv hw hrv hrw hcv hcw hhead hnext heq
    have htail := (hv.head r hrv c (by omega) hhead).2
    rw [heq, or_self] at hnext
    rw [heq] at htail
    simp only [Cell.isWide, Cell.isWideContinuation, beq_iff_eq] at hnext htail
    omega
  left
  obtain hleft | hleft := hleft
  · exact hcase a b ha hb hr (by omega) hc (by omega) hleft hright
  · exact (hcase b a hb ha (by omega) hr (by omega) hc hleft hright.symm).symm

/-- The flag of a cell says whether the cell has changed. -/
theorem flag_changedRow (ha : a.WholePairs) (hb : b.WholePairs) (hrows : a.rows = b.rows)
    (hcols : a.cols = b.cols) (hr : r < a.rows) {c : Nat} (hc : c < a.cols) :
    flag (changedRow a b a.cols r) c = true ↔ CellChanges a b r c := by
  have hwide (i : Nat) : flag ((List.range a.cols).map fun c =>
      (a.cell r c).isWide || (b.cell r c).isWide) i = true ↔ i < a.cols ∧
        ((a.cell r i).isWide = true ∨ (b.cell r i).isWide = true) := by
    rw [flag_map_range]
    simp
  have hraw (i : Nat) : flag ((List.range a.cols).map fun c =>
      cellsDiffer (a.defaults.fg != b.defaults.fg) (a.defaults.bg != b.defaults.bg)
        (a.cell r c) (b.cell r c)) i = true ↔ i < a.cols ∧ CellDiffers a b r i := by
    rw [flag_map_range, Bool.and_eq_true, cellsDiffer_iff, decide_eq_true_iff]
  rw [changedRow, flag_pairChanged (by simp) _ _ hc]
  · rw [hwide, hraw, hraw, hwide, hraw]
    constructor
    · rintro (⟨-, h⟩ | ⟨⟨-, hhead⟩, hd, h⟩ | ⟨hpos, ⟨-, hhead⟩, hd, h⟩)
      · exact .inl h
      · exact .inr ⟨c + 1, hd, hhead.imp (fun h => .inl ⟨h, rfl⟩) fun h => .inl ⟨h, rfl⟩, h⟩
      · have hc' : c = c - 1 + 1 := by omega
        exact .inr ⟨c - 1, hd, hhead.imp (fun h => .inr ⟨h, hc'⟩) fun h => .inr ⟨h, hc'⟩, h⟩
    · rintro (h | ⟨d, hd, (⟨hhead, rfl⟩ | ⟨hhead, rfl⟩) | ⟨hhead, rfl⟩ | ⟨hhead, rfl⟩, h⟩)
      · exact .inl ⟨hc, h⟩
      · exact .inr (.inl ⟨⟨hc, .inl hhead⟩, hd, h⟩)
      · exact .inr (.inr ⟨Nat.succ_pos d, ⟨hd, .inl hhead⟩, hd, h⟩)
      · exact .inr (.inl ⟨⟨hc, .inr hhead⟩, hd, h⟩)
      · exact .inr (.inr ⟨Nat.succ_pos d, ⟨hd, .inr hhead⟩, hd, h⟩)
  · intro i hpos hleft hright
    obtain ⟨k, rfl⟩ : ∃ k, i = k + 1 := ⟨i - 1, by omega⟩
    rw [Nat.add_sub_cancel] at hleft
    rw [hwide] at hleft hright
    rw [hraw]
    exact ⟨hright.1, differs_of_overlap ha hb hrows hcols hr hright.1 hleft.2 hright.2⟩
  · intro i hhead
    rw [hwide] at hhead
    obtain ⟨hi, hhead | hhead⟩ := hhead
    · exact (ha.head r hr i hi hhead).1
    · rw [hcols]
      exact (hb.head r (by omega) i (by omega) hhead).1

end Mask

section Runs

variable {flags : List Bool} {c : Nat} {start : Option Nat}

theorem flag_cons_zero (b : Bool) (flags : List Bool) : flag (b :: flags) 0 = b := rfl

theorem flag_cons_sub (b : Bool) (flags : List Bool) {c i : Nat} (hi : c < i) :
    flag (b :: flags) (i - c) = flag flags (i - (c + 1)) := by
  obtain ⟨k, hk⟩ : ∃ k, i - c = k + 1 := ⟨i - c - 1, by omega⟩
  rw [hk, show i - (c + 1) = k by omega]
  rfl

/-- The spans hold the flagged columns, with those of the run at hand. -/
theorem mem_spansFrom_iff (hstart : start.getD c ≤ c) (i : Nat) :
    (∃ span ∈ spansFrom flags c start, span.1 ≤ i ∧ i < span.2) ↔
      (start.getD c ≤ i ∧ i < c) ∨ (c ≤ i ∧ flag flags (i - c) = true) := by
  induction flags generalizing c start with
  | nil =>
    cases start with
    | none => simp [spansFrom, flag]
    | some s => simp [spansFrom, flag]
  | cons b flags ih =>
    have hhere : i = c → flag (b :: flags) (i - c) = b := by
      rintro rfl
      rw [Nat.sub_self, flag_cons_zero]
    have hahead : c < i → flag (b :: flags) (i - c) = flag flags (i - (c + 1)) :=
      fun hi => flag_cons_sub b flags hi
    cases b with
    | true =>
      have hrest := ih (show (some (start.getD c)).getD (c + 1) ≤ c + 1 by
        rw [Option.getD_some]
        omega)
      rw [Option.getD_some] at hrest
      rw [spansFrom, hrest]
      rcases lt_trichotomy i c with hi | hi | hi
      · grind
      · simp only [hhere hi]
        grind
      · rw [hahead hi]
        grind
    | false =>
      have hrest := ih (show (none : Option Nat).getD (c + 1) ≤ c + 1 from le_rfl)
      have hopen : (∃ span ∈ (start.map fun start => (start, c)).toList,
          span.1 ≤ i ∧ i < span.2) ↔ start.getD c ≤ i ∧ i < c := by
        cases start with
        | none => simp
        | some s => simp
      rw [Option.getD_none] at hrest
      simp only [spansFrom, mem_append, or_and_right, exists_or, hopen, hrest]
      rcases lt_trichotomy i c with hi | hi | hi
      · grind
      · simp only [hhere hi]
        grind
      · rw [hahead hi]
        grind

/-- The spans come in order, with a column between one and the next. -/
theorem spansFrom_ordered (hstart : ∀ s, start = some s → s < c) :
    (spansFrom flags c start).Pairwise (fun p q => p.2 < q.1) ∧
      ∀ span ∈ spansFrom flags c start, start.getD c ≤ span.1 ∧ span.1 < span.2 := by
  induction flags generalizing c start with
  | nil =>
    cases start with
    | none => simp [spansFrom]
    | some s => simp [spansFrom, hstart s rfl]
  | cons b flags ih =>
    cases b with
    | true =>
      have hopen : start.getD c ≤ c := by
        cases start with
        | none => exact le_rfl
        | some s => exact (hstart s rfl).le
      exact ih (c := c + 1) fun s hs => by
        cases hs
        omega
    | false =>
      obtain ⟨hpairs, hspans⟩ := ih (show ∀ s, (none : Option Nat) = some s → s < c + 1 by simp)
      rw [spansFrom, pairwise_append]
      refine ⟨⟨?_, hpairs, ?_⟩, ?_⟩
      · cases start <;> simp
      · intro p hp q hq
        have hq := (hspans q hq).1
        cases start with
        | none => simp at hp
        | some s =>
          rw [Option.map_some, Option.toList_some, mem_singleton] at hp
          rw [hp]
          exact Nat.lt_of_succ_le hq
      · intro span hspan
        rcases mem_append.1 hspan with hspan | hspan
        · cases start with
          | none => simp at hspan
          | some s =>
            rw [Option.map_some, Option.toList_some, mem_singleton] at hspan
            rw [hspan]
            exact ⟨le_rfl, hstart s rfl⟩
        · have hbounds := hspans span hspan
          refine ⟨?_, hbounds.2⟩
          have hfirst : c + 1 ≤ span.1 := hbounds.1
          cases start with
          | none =>
            rw [Option.getD_none]
            omega
          | some s =>
            have hs := hstart s rfl
            rw [Option.getD_some]
            omega

/-- The spans are as long together as there are flagged columns, and as the run at hand. -/
theorem sum_spansFrom (hstart : start.getD c ≤ c) :
    ((spansFrom flags c start).map fun span => span.2 - span.1).sum =
      flags.count true + (c - start.getD c) := by
  induction flags generalizing c start with
  | nil =>
    cases start with
    | none => simp [spansFrom]
    | some s => simp [spansFrom]
  | cons b flags ih =>
    cases b with
    | true =>
      have hrest := ih (show (some (start.getD c)).getD (c + 1) ≤ c + 1 by
        rw [Option.getD_some]
        omega)
      rw [Option.getD_some] at hrest
      rw [spansFrom, hrest, count_cons_self]
      omega
    | false =>
      have hrest := ih (show (none : Option Nat).getD (c + 1) ≤ c + 1 from le_rfl)
      rw [spansFrom, map_append, sum_append, hrest, count_cons_of_ne (by simp)]
      cases start with
      | none => simp
      | some s => simp [Nat.add_comm]

end Runs

section Frame

variable {rows : List (List Bool)} {cols : Nat}

/-- The runs of rows of flags, each with its row. -/
def rowSpans (rows : List (List Bool)) : List (Nat × Nat × Nat) :=
  (rows.map fun row => spansFrom row 0 none).zipIdx.flatMap fun (spans, r) =>
    spans.map fun span => (r, span)

/-- A flag of rows of flags. -/
def flagAt (rows : List (List Bool)) (r c : Nat) : Bool := flag (rows.getD r []) c

/-- A run comes before another. -/
def RunBefore (p q : Nat × Nat × Nat) : Prop := p.1 < q.1 ∨ p.1 = q.1 ∧ p.2.2 < q.2.1

theorem mem_rowSpans_iff {run : Nat × Nat × Nat} :
    run ∈ rowSpans rows ↔ run.2 ∈ spansFrom (rows.getD run.1 []) 0 none := by
  obtain ⟨r, span⟩ := run
  simp only [rowSpans, mem_flatMap, mem_map, Prod.mk.injEq, Prod.exists,
    mem_zipIdx_iff_getElem?, List.getElem?_map, Option.map_eq_some_iff]
  constructor
  · rintro ⟨_, _, ⟨row, hrow, rfl⟩, s, e, hspan, rfl, rfl⟩
    rwa [getD_eq_getElem?_getD, hrow]
  · intro hspan
    cases hrow : rows[r]? with
    | none =>
      rw [getD_eq_getElem?_getD, hrow] at hspan
      simp [spansFrom] at hspan
    | some row =>
      rw [getD_eq_getElem?_getD, hrow] at hspan
      exact ⟨_, r, ⟨row, hrow, rfl⟩, span.1, span.2, hspan, rfl, rfl⟩

theorem rowSpans_ordered (rows : List (List Bool)) : (rowSpans rows).Pairwise RunBefore := by
  rw [rowSpans, pairwise_flatMap]
  constructor
  · rintro ⟨spans, r⟩ hmem
    obtain ⟨row, -, rfl⟩ := mem_map.1 (fst_mem_of_mem_zipIdx hmem)
    rw [pairwise_map]
    exact (spansFrom_ordered (by simp)).1.imp fun h => .inr ⟨rfl, h⟩
  · have hrows : (List.range' 0 (rows.map fun row => spansFrom row 0 none).length 1).Pairwise
        (· < ·) := pairwise_lt_range'
    rw [← zipIdx_map_snd 0, pairwise_map] at hrows
    refine hrows.imp ?_
    rintro ⟨spans, r⟩ ⟨spans', r'⟩ hlt run hrun run' hrun'
    obtain ⟨span, -, rfl⟩ := mem_map.1 hrun
    obtain ⟨span', -, rfl⟩ := mem_map.1 hrun'
    exact .inl hlt

/-- The runs hold the flagged cells. -/
theorem exists_rowSpans_iff (r c : Nat) :
    (∃ run ∈ rowSpans rows, run.1 = r ∧ run.2.1 ≤ c ∧ c < run.2.2) ↔ flagAt rows r c = true := by
  have hspans : (∃ span ∈ spansFrom (rows.getD r []) 0 none, span.1 ≤ c ∧ c < span.2) ↔ _ :=
    mem_spansFrom_iff le_rfl c
  rw [Option.getD_none, Nat.sub_zero] at hspans
  rw [flagAt]
  constructor
  · rintro ⟨⟨_, span⟩, hrun, rfl, hle, hlt⟩
    have hcover := hspans.1 ⟨span, mem_rowSpans_iff.1 hrun, hle, hlt⟩
    exact (hcover.resolve_left fun h => by omega).2
  · intro hflag
    obtain ⟨span, hspan, hle, hlt⟩ := hspans.2 (.inr ⟨Nat.zero_le c, hflag⟩)
    exact ⟨(r, span), mem_rowSpans_iff.2 hspan, rfl, hle, hlt⟩

theorem sum_rowSpans (rows : List (List Bool)) :
    ((rowSpans rows).map fun run => run.2.2 - run.2.1).sum = rows.flatten.count true := by
  have hfrom : ∀ k, ((((rows.map fun row => spansFrom row 0 none).zipIdx k).flatMap
      fun (spans, r) => spans.map fun span => (r, span)).map fun run => run.2.2 - run.2.1).sum =
        rows.flatten.count true := by
    induction rows with
    | nil => exact fun _ => rfl
    | cons row rows ih =>
      intro k
      have hrow : ((spansFrom row 0 none).map fun span => span.2 - span.1).sum = _ :=
        sum_spansFrom le_rfl
      rw [Nat.zero_sub, Nat.add_zero] at hrow
      rw [map_cons, zipIdx_cons, flatMap_cons, map_append, sum_append,
        ih, map_map, flatten_cons, count_append, ← hrow]
      rfl
  exact hfrom 0

theorem getElem?_flatten (h : ∀ row ∈ rows, row.length = cols) (r : Nat) {c : Nat} (hc : c < cols) :
    rows.flatten[r * cols + c]? = rows[r]?.bind fun row => row[c]? := by
  induction rows generalizing r with
  | nil => simp
  | cons row rows ih =>
    have hrow : row.length = cols := h row mem_cons_self
    cases r with
    | zero =>
      rw [flatten_cons, Nat.zero_mul, Nat.zero_add, List.getElem?_append_left (by omega)]
      rfl
    | succ r =>
      rw [flatten_cons, List.getElem?_append_right (by rw [hrow]; nlinarith),
        List.getElem?_cons_succ, ← ih (fun row' hmem => h row' (mem_cons_of_mem _ hmem)),
        hrow, Nat.succ_mul]
      congr 1
      omega

theorem flagAt_of_run {r s e c : Nat} (hrun : (r, s, e) ∈ rowSpans rows) (hs : s ≤ c) (he : c < e) :
    flagAt rows r c = true :=
  (exists_rowSpans_iff r c).1 ⟨_, hrun, rfl, hs, he⟩

/-- Two runs of a row are the same, or a column lies between them. -/
theorem rowSpans_apart {r s e s' e' : Nat} (hrun : (r, s, e) ∈ rowSpans rows)
    (hrun' : (r, s', e') ∈ rowSpans rows) : s = s' ∧ e = e' ∨ e < s' ∨ e' < s := by
  have hsymm : Std.Symm fun p q => RunBefore p q ∨ RunBefore q p := ⟨fun _ _ h => h.symm⟩
  have hapart := List.Pairwise.forall ((rowSpans_ordered rows).imp
    (S := fun p q => RunBefore p q ∨ RunBefore q p) fun h => .inl h) hrun hrun'
  by_cases heq : (r, s, e) = (r, s', e')
  · simp only [Prod.mk.injEq, true_and] at heq
    exact .inl heq
  · obtain (h | ⟨-, h⟩) | h | ⟨-, h⟩ := hapart heq
    · exact absurd h (Nat.lt_irrefl r)
    · exact .inr (.inl h)
    · exact absurd h (Nat.lt_irrefl r)
    · exact .inr (.inr h)

/-- The runs are the longest stretches of flagged columns. -/
theorem mem_rowSpans_iff_maximal {r s e : Nat} :
    (r, s, e) ∈ rowSpans rows ↔ s < e ∧ (∀ c, s ≤ c → c < e → flagAt rows r c = true) ∧
      flagAt rows r e = false ∧ (0 < s → flagAt rows r (s - 1) = false) := by
  have hpos : ∀ {r s e}, (r, s, e) ∈ rowSpans rows → s < e := fun hrun =>
    ((spansFrom_ordered (by simp)).2 _ (mem_rowSpans_iff.1 hrun)).2
  -- a flag outside a run belongs to another, which is not next to it
  have hbeside : ∀ {r s e c}, (r, s, e) ∈ rowSpans rows → c + 1 = s ∨ c = e →
      flagAt rows r c = false := by
    intro r s e c hrun hc
    by_contra hflag
    rw [Bool.not_eq_false, ← exists_rowSpans_iff] at hflag
    obtain ⟨⟨_, s', e'⟩, hrun', rfl, hle, hgt⟩ := hflag
    have hlt := hpos hrun
    have hapart := rowSpans_apart hrun hrun'
    dsimp only at hle hgt
    omega
  constructor
  · intro hrun
    exact ⟨hpos hrun, fun c => flagAt_of_run hrun, hbeside hrun (.inr rfl),
      fun hs => hbeside hrun (.inl (Nat.sub_add_cancel hs))⟩
  · rintro ⟨hlt, hall, hend, hstart⟩
    obtain ⟨⟨_, s', e'⟩, hrun, rfl, hle, hgt⟩ := (exists_rowSpans_iff r s).2 (hall s le_rfl hlt)
    dsimp only at hle hgt hall hend hstart
    have hs : s' = s := by
      by_contra hne
      have hflag := flagAt_of_run (c := s - 1) hrun (by omega) (by omega)
      rw [hstart (by omega)] at hflag
      cases hflag
    have he : e' = e := by
      rcases lt_trichotomy e' e with h | h | h
      · have hflag := hall e' (by omega) h
        rw [hbeside hrun (.inr rfl)] at hflag
        cases hflag
      · exact h
      · have hflag := flagAt_of_run (c := e) hrun (by omega) h
        rw [hend] at hflag
        cases hflag
    rwa [← hs, ← he]

end Frame
/-! ## The report -/

namespace FrameDiff

/-- A cell the mask marks. -/
def Marked (d : FrameDiff) (r c : Nat) : Prop :=
  r < d.rows ∧ c < d.cols ∧ d.changedMask[r * d.cols + c]? = some true

/-- A longest run of marked cells of a row. -/
def MaximalRun (d : FrameDiff) (span : LensRowSpan) : Prop :=
  span.colStart < span.colEnd ∧
    (∀ c, span.colStart ≤ c → c < span.colEnd → d.Marked span.row c) ∧
    ¬d.Marked span.row span.colEnd ∧
    (0 < span.colStart → ¬d.Marked span.row (span.colStart - 1))

/-- A box from a first row and column up to a last row and column holds every marked cell. -/
def Boxed (d : FrameDiff) (box : Nat × Nat × Nat × Nat) : Prop :=
  ∀ r c, d.Marked r c → box.1 ≤ r ∧ r < box.2.2.1 ∧ box.2.1 ≤ c ∧ c < box.2.2.2

/-- What a comparison of two frames of one size reports. -/
structure Exact (a b : CellGridView) (d : FrameDiff) : Prop where
  size : d.rows = a.rows ∧ d.cols = a.cols ∧ d.changedMask.length = a.rows * a.cols
  marked : ∀ r < a.rows, ∀ c < a.cols, (d.Marked r c ↔ CellChanges a b r c)
  cellsChanged : d.cellsChanged = d.changedMask.count true
  changedRows : d.changedRows.Pairwise (· < ·) ∧ ∀ r, r ∈ d.changedRows ↔ ∃ c, d.Marked r c
  regions : ∃ runs : List LensRowSpan,
    runs.Pairwise (fun p q => p.row < q.row ∨ p.row = q.row ∧ p.colEnd < q.colStart) ∧
      (∀ span, span ∈ runs ↔ d.MaximalRun span) ∧
      d.regionsTruncated = decide (maxSpans < runs.length) ∧
      d.regions = if d.regionsTruncated then [] else runs
  noBox : (∀ r c, ¬d.Marked r c) → d.boundingBox = (0, 0, 0, 0)
  box : (∃ r c, d.Marked r c) → d.Boxed d.boundingBox ∧ ∀ box, d.Boxed box →
    box.1 ≤ d.boundingBox.1 ∧ d.boundingBox.2.2.1 ≤ box.2.2.1 ∧
      box.2.1 ≤ d.boundingBox.2.1 ∧ d.boundingBox.2.2.2 ≤ box.2.2.2

end FrameDiff

section Report

variable {a b : CellGridView}

/-- The rows of flags of two frames of one size. -/
def changedRows (a b : CellGridView) : List (List Bool) :=
  (List.range a.rows).map (changedRow a b a.cols)

theorem flagAt_changedRows (a b : CellGridView) {r : Nat} (hr : r < a.rows) (c : Nat) :
    flagAt (changedRows a b) r c = flag (changedRow a b a.cols r) c := by
  rw [flagAt, changedRows, getD_eq_getElem?_getD, List.getElem?_map, List.getElem?_range hr]
  rfl

theorem flag_of_length_le {flags : List Bool} {c : Nat} (h : flags.length ≤ c) :
    flag flags c = false := by
  rw [flag, getD_eq_getElem?_getD, List.getElem?_eq_none h]
  rfl

theorem bounds_of_flagAt {r c : Nat} (h : flagAt (changedRows a b) r c = true) :
    r < a.rows ∧ c < a.cols := by
  have hr : r < a.rows := by
    by_contra hr
    rw [flagAt, changedRows, getD_eq_getElem?_getD,
      List.getElem?_eq_none (by rw [length_map, length_range]; omega)] at h
    cases h
  refine ⟨hr, ?_⟩
  by_contra hc
  rw [flagAt_changedRows a b hr, flag_of_length_le (by rw [length_changedRow]; omega)] at h
  cases h

theorem changedRow_comm (a b : CellGridView) (cols r : Nat) :
    changedRow a b cols r = changedRow b a cols r := by
  refine congrArg₂ (fun wide changed => pairChanged wide changed cols) ?_ ?_
  · exact map_congr_left fun c _ => Bool.or_comm _ _
  · refine map_congr_left fun c _ => ?_
    unfold cellsDiffer
    rw [bne_comm (a := a.cell r c), bne_comm (a := a.defaults.fg), bne_comm (a := a.defaults.bg),
      Bool.and_right_comm, Bool.and_right_comm (b.defaults.bg != a.defaults.bg)]

theorem diffFrames_of_same_size (hrows : a.rows = b.rows) (hcols : a.cols = b.cols) :
    (diffFrames a b).rows = a.rows ∧ (diffFrames a b).cols = a.cols ∧
      (diffFrames a b).changedMask = (changedRows a b).flatten := by
  simp [diffFrames, changedRows, hrows, hcols]

theorem marked_iff_flagAt (hrows : a.rows = b.rows) (hcols : a.cols = b.cols) (r c : Nat) :
    (diffFrames a b).Marked r c ↔ flagAt (changedRows a b) r c = true := by
  obtain ⟨hr, hc, hmask⟩ := diffFrames_of_same_size hrows hcols
  have hlength : ∀ row ∈ changedRows a b, row.length = a.cols := by
    intro row hrow
    obtain ⟨r, -, rfl⟩ := mem_map.1 hrow
    exact length_changedRow a b a.cols r
  rw [FrameDiff.Marked, hr, hc, hmask]
  constructor
  · rintro ⟨hr, hc, hflag⟩
    rw [getElem?_flatten hlength r hc, changedRows, List.getElem?_map, List.getElem?_range hr,
      Option.map_some, Option.bind_some] at hflag
    rw [flagAt_changedRows a b hr, flag, getD_eq_getElem?_getD, hflag]
    rfl
  · intro hflag
    obtain ⟨hr, hc⟩ := bounds_of_flagAt hflag
    refine ⟨hr, hc, ?_⟩
    rw [flagAt_changedRows a b hr, flag, getD_eq_getElem?_getD] at hflag
    rw [getElem?_flatten hlength r hc, changedRows, List.getElem?_map, List.getElem?_range hr,
      Option.map_some, Option.bind_some]
    have hlt : c < (changedRow a b a.cols r).length := by rwa [length_changedRow]
    rw [List.getElem?_eq_getElem hlt] at hflag ⊢
    exact congrArg some hflag

/-- The runs of two frames of one size, and what the comparator makes of them. -/
theorem diffFrames_eq (hrows : a.rows = b.rows) (hcols : a.cols = b.cols) :
    let spans := rowSpans (changedRows a b)
    let cellsChanged := (spans.map fun run => run.2.2 - run.2.1).sum % 2 ^ 32
    let regions := spans.map fun run => (⟨asU16 run.1, asU16 run.2.1, asU16 run.2.2⟩ : LensRowSpan)
    (diffFrames a b).cellsChanged = cellsChanged ∧
    (diffFrames a b).regions = (if maxSpans < regions.length then [] else regions) ∧
    (diffFrames a b).regionsTruncated = decide (maxSpans < regions.length) ∧
    (diffFrames a b).changedRows =
      (List.range a.rows).filter (fun r => (changedRow a b a.cols r).any id) ∧
    (diffFrames a b).boundingBox =
      if cellsChanged = 0 then (0, 0, 0, 0)
      else
        (asU16 ((spans.map fun run => run.1).min?.getD 0),
          asU16 ((spans.map fun run => run.2.1).min?.getD 0),
          asU16 ((spans.map fun run => run.1).max?.getD 0 + 1),
          asU16 ((spans.map fun run => run.2.2 - 1).max?.getD 0 + 1)) := by
  unfold diffFrames
  rw [← hrows, ← hcols, min_self, min_self]
  exact ⟨rfl, rfl, rfl, rfl, rfl⟩

theorem least_mem {l : List Nat} (h : l ≠ []) : l.min?.getD 0 ∈ l ∧ ∀ n ∈ l, l.min?.getD 0 ≤ n := by
  obtain ⟨m, hm⟩ := Option.isSome_iff_exists.1 (isSome_min?_of_ne_nil h)
  rw [hm]
  exact List.min?_eq_some_iff.1 hm

theorem greatest_mem {l : List Nat} (h : l ≠ []) :
    l.max?.getD 0 ∈ l ∧ ∀ n ∈ l, n ≤ l.max?.getD 0 := by
  obtain ⟨m, hm⟩ := Option.isSome_iff_exists.1 (isSome_max?_of_ne_nil h)
  rw [hm]
  exact List.max?_eq_some_iff.1 hm

/-- A run lies in the frame. -/
theorem bounds_of_run {run : Nat × Nat × Nat} (h : run ∈ rowSpans (changedRows a b)) :
    run.1 < a.rows ∧ run.2.1 < run.2.2 ∧ run.2.2 ≤ a.cols := by
  obtain ⟨r, s, e⟩ := run
  obtain ⟨hlt, hall, -, -⟩ := mem_rowSpans_iff_maximal.1 h
  have hfirst := bounds_of_flagAt (hall s le_rfl hlt)
  have hlast := bounds_of_flagAt (hall (e - 1) (by omega) (by omega))
  refine ⟨hfirst.1, hlt, ?_⟩
  show e ≤ a.cols
  omega

theorem length_flatten_changedRows (a b : CellGridView) :
    (changedRows a b).flatten.length = a.rows * a.cols := by
  have hconst : List.length ∘ changedRow a b a.cols = fun _ => a.cols :=
    funext fun r => length_changedRow a b a.cols r
  rw [length_flatten, changedRows, map_map, hconst, map_const',
    sum_replicate, length_range, smul_eq_mul]

section

variable (hrows : a.rows = b.rows)
include hrows

section

variable (hcols : a.cols = b.cols)
include hcols

theorem cellsChanged_eq (hr : a.rows < 65536) (hc : a.cols < 65536) :
    (diffFrames a b).cellsChanged = (diffFrames a b).changedMask.count true := by
  rw [(diffFrames_eq hrows hcols).1, (diffFrames_of_same_size hrows hcols).2.2, sum_rowSpans]
  refine Nat.mod_eq_of_lt (lt_of_le_of_lt count_le_length ?_)
  rw [length_flatten_changedRows]
  calc a.rows * a.cols ≤ 65535 * 65535 := Nat.mul_le_mul (by omega) (by omega)
    _ < 2 ^ 32 := by norm_num

/-- The mask has a marked cell exactly when there is a run, and when the count is not zero. -/
theorem exists_marked_iff :
    (∃ r c, (diffFrames a b).Marked r c) ↔ rowSpans (changedRows a b) ≠ [] := by
  simp only [marked_iff_flagAt hrows hcols, ← exists_rowSpans_iff]
  constructor
  · rintro ⟨r, c, run, hrun, -⟩
    exact ne_nil_of_mem hrun
  · intro hne
    obtain ⟨run, hrun⟩ := exists_mem_of_ne_nil _ hne
    exact ⟨run.1, run.2.1, run, hrun, rfl, le_rfl, (bounds_of_run hrun).2.1⟩

theorem cellsChanged_eq_zero_iff (hr : a.rows < 65536) (hc : a.cols < 65536) :
    (diffFrames a b).cellsChanged = 0 ↔ rowSpans (changedRows a b) = [] := by
  rw [cellsChanged_eq hrows hcols hr hc, (diffFrames_of_same_size hrows hcols).2.2, ← sum_rowSpans,
    sum_eq_zero_iff]
  constructor
  · intro hzero
    refine eq_nil_iff_forall_not_mem.2 fun run hrun => ?_
    have hlt := (bounds_of_run hrun).2.1
    have hsize := hzero _ (mem_map_of_mem hrun)
    omega
  · intro hnone
    simp [hnone]

theorem runs_exact (hr : a.rows < 65536) (hc : a.cols < 65536) :
    ∃ runs : List LensRowSpan,
      runs.Pairwise (fun p q => p.row < q.row ∨ p.row = q.row ∧ p.colEnd < q.colStart) ∧
        (∀ span, span ∈ runs ↔ (diffFrames a b).MaximalRun span) ∧
        (diffFrames a b).regionsTruncated = decide (maxSpans < runs.length) ∧
        (diffFrames a b).regions = if (diffFrames a b).regionsTruncated then [] else runs := by
  obtain ⟨-, hregions, htruncated, -, -⟩ := diffFrames_eq hrows hcols
  have hexact : ((rowSpans (changedRows a b)).map fun run =>
      (⟨asU16 run.1, asU16 run.2.1, asU16 run.2.2⟩ : LensRowSpan)) =
        (rowSpans (changedRows a b)).map fun run => ⟨run.1, run.2.1, run.2.2⟩ := by
    refine map_congr_left fun run hrun => ?_
    obtain ⟨hrow, hlt, hcol⟩ := bounds_of_run hrun
    rw [asU16_of_lt (by omega), asU16_of_lt (by omega), asU16_of_lt (by omega)]
  rw [hexact] at hregions htruncated
  refine ⟨_, ?_, fun span => ?_, htruncated, ?_⟩
  · rw [pairwise_map]
    exact rowSpans_ordered _
  · simp only [FrameDiff.MaximalRun, marked_iff_flagAt hrows hcols, Bool.not_eq_true]
    rw [← mem_rowSpans_iff_maximal, mem_map]
    constructor
    · rintro ⟨run, hrun, rfl⟩
      exact hrun
    · intro hrun
      exact ⟨_, hrun, rfl⟩
  · rw [hregions, htruncated]
    simp only [decide_eq_true_eq]

theorem box_exact (hr : a.rows < 65536)
    (hc : a.cols < 65536) (hmarked : ∃ r c, (diffFrames a b).Marked r c) :
    (diffFrames a b).Boxed (diffFrames a b).boundingBox ∧ ∀ box, (diffFrames a b).Boxed box →
      box.1 ≤ (diffFrames a b).boundingBox.1 ∧ (diffFrames a b).boundingBox.2.2.1 ≤ box.2.2.1 ∧
        box.2.1 ≤ (diffFrames a b).boundingBox.2.1 ∧
        (diffFrames a b).boundingBox.2.2.2 ≤ box.2.2.2 := by
  have hne := (exists_marked_iff hrows hcols).1 hmarked
  obtain ⟨hcount, -, -, -, hbox⟩ := diffFrames_eq hrows hcols
  rw [← hcount, if_neg (mt (cellsChanged_eq_zero_iff hrows hcols hr hc).1 hne)] at hbox
  have hmap (f : Nat × Nat × Nat → Nat) : (rowSpans (changedRows a b)).map f ≠ [] := by simpa
  obtain ⟨hrow₀, hrowLe⟩ := least_mem (hmap fun run => run.1)
  obtain ⟨hcol₀, hcolLe⟩ := least_mem (hmap fun run => run.2.1)
  obtain ⟨hrow₁, hrowGe⟩ := greatest_mem (hmap fun run => run.1)
  obtain ⟨hcol₁, hcolGe⟩ := greatest_mem (hmap fun run => run.2.2 - 1)
  generalize ((rowSpans (changedRows a b)).map fun run => run.1).min?.getD 0 = row₀ at *
  generalize ((rowSpans (changedRows a b)).map fun run => run.2.1).min?.getD 0 = col₀ at *
  generalize ((rowSpans (changedRows a b)).map fun run => run.1).max?.getD 0 = row₁ at *
  generalize ((rowSpans (changedRows a b)).map fun run => run.2.2 - 1).max?.getD 0 = col₁ at *
  simp only [forall_mem_map] at hrowLe hcolLe hrowGe hcolGe
  -- the first and last column of a run are marked
  have hends : ∀ run ∈ rowSpans (changedRows a b), (diffFrames a b).Marked run.1 run.2.1 ∧
      (diffFrames a b).Marked run.1 (run.2.2 - 1) := by
    rintro ⟨r, s, e⟩ hrun
    have hlt : s < e := (bounds_of_run hrun).2.1
    rw [marked_iff_flagAt hrows hcols, marked_iff_flagAt hrows hcols]
    exact ⟨flagAt_of_run hrun le_rfl hlt, flagAt_of_run hrun (Nat.le_sub_one_of_lt hlt)
      (Nat.sub_one_lt_of_lt hlt)⟩
  obtain ⟨runTop, hrunTop, rfl⟩ := mem_map.1 hrow₀
  obtain ⟨runLeft, hrunLeft, rfl⟩ := mem_map.1 hcol₀
  obtain ⟨runBottom, hrunBottom, rfl⟩ := mem_map.1 hrow₁
  obtain ⟨runRight, hrunRight, rfl⟩ := mem_map.1 hcol₁
  have hboundTop := bounds_of_run hrunTop
  have hboundLeft := bounds_of_run hrunLeft
  have hboundBottom := bounds_of_run hrunBottom
  have hboundRight := bounds_of_run hrunRight
  rw [asU16_of_lt (by omega), asU16_of_lt (by omega), asU16_of_lt (by omega),
    asU16_of_lt (by omega)] at hbox
  rw [hbox]
  refine ⟨fun r c hcell => ?_, fun box hboxed => ?_⟩
  · rw [marked_iff_flagAt hrows hcols, ← exists_rowSpans_iff] at hcell
    obtain ⟨run, hrun, rfl, hle, hlt⟩ := hcell
    have htop := hrowLe run hrun
    have hleft := hcolLe run hrun
    have hbottom := hrowGe run hrun
    have hright := hcolGe run hrun
    refine ⟨htop, ?_, hleft.trans hle, ?_⟩
    · exact Nat.lt_succ_of_le hbottom
    · show c < runRight.2.2 - 1 + 1
      omega
  · have htop := hboxed _ _ (hends runTop hrunTop).1
    have hleft := hboxed _ _ (hends runLeft hrunLeft).1
    have hbottom := hboxed _ _ (hends runBottom hrunBottom).1
    have hright := hboxed _ _ (hends runRight hrunRight).2
    exact ⟨htop.1, hbottom.2.1, hleft.2.2.1, hright.2.2.2⟩

end

end

/-- How a cell presents: its value, and what its default colours stand for. -/
def CellGridView.shown (v : CellGridView) (r c : Nat) : Cell × Option (Option Rgb) ×
    Option (Option Rgb) :=
  (v.cell r c, if (v.cell r c).style.fg = .default then some v.defaults.fg else none,
    if (v.cell r c).style.bg = .default then some v.defaults.bg else none)

/-- A cell that does not differ presents alike. -/
theorem shown_eq_of_not_differs {r c : Nat} (h : ¬CellDiffers a b r c) :
    a.shown r c = b.shown r c := by
  rw [CellDiffers, not_or, not_or, not_not] at h
  obtain ⟨hcell, hfg, hbg⟩ := h
  rw [CellGridView.shown, CellGridView.shown, ← hcell]
  rw [← hcell] at hfg hbg
  refine Prod.ext rfl (Prod.ext ?_ ?_)
  · by_cases hdefault : (a.cell r c).style.fg = .default
    · have hsame : a.defaults.fg = b.defaults.fg := by
        by_contra hne
        exact hfg ⟨hne, hdefault, hdefault⟩
      simp only [if_pos hdefault, hsame]
    · simp only [if_neg hdefault]
  · by_cases hdefault : (a.cell r c).style.bg = .default
    · have hsame : a.defaults.bg = b.defaults.bg := by
        by_contra hne
        exact hbg ⟨hne, hdefault, hdefault⟩
      simp only [if_pos hdefault, hsame]
    · simp only [if_neg hdefault]

theorem diffFrames_report (ha : a.WholePairs) (hb : b.WholePairs) (hrows : a.rows = b.rows)
    (hcols : a.cols = b.cols) (hr : a.rows < 65536) (hc : a.cols < 65536) :
    (diffFrames a b).Exact a b := by
  obtain ⟨hr', hc', hmask⟩ := diffFrames_of_same_size hrows hcols
  obtain ⟨hcount, -, -, hchangedRows, hbox⟩ := diffFrames_eq hrows hcols
  have hmarked : ∀ r < a.rows, ∀ c < a.cols,
      ((diffFrames a b).Marked r c ↔ CellChanges a b r c) := by
    intro r hr c hc
    rw [marked_iff_flagAt hrows hcols, flagAt_changedRows a b hr,
      flag_changedRow ha hb hrows hcols hr hc]
  refine ⟨⟨hr', hc', ?_⟩, hmarked, cellsChanged_eq hrows hcols hr hc, ⟨?_, fun r => ?_⟩,
    runs_exact hrows hcols hr hc, fun hnone => ?_, box_exact hrows hcols hr hc⟩
  · rw [hmask, length_flatten_changedRows]
  · rw [hchangedRows]
    exact pairwise_lt_range.filter _
  · rw [hchangedRows, mem_filter, mem_range, any_eq_true]
    simp only [marked_iff_flagAt hrows hcols, id_eq, exists_eq_right]
    rw [mem_iff_getElem?]
    constructor
    · rintro ⟨hr, c, hflag⟩
      exact ⟨c, by rw [flagAt_changedRows a b hr, flag_eq_true_iff, hflag]⟩
    · rintro ⟨c, hflag⟩
      have hr := (bounds_of_flagAt hflag).1
      rw [flagAt_changedRows a b hr, flag_eq_true_iff] at hflag
      exact ⟨hr, c, hflag⟩
  · rw [hbox, ← hcount, if_pos]
    rw [cellsChanged_eq_zero_iff hrows hcols hr hc]
    by_contra hne
    obtain ⟨r, c, hcell⟩ := (exists_marked_iff hrows hcols).2 hne
    exact hnone r c hcell

/-- The comparator is exact on frames of one size: the mask marks the cells that changed, and the
count, the rows, the runs and the box are those of the mask. Which frame comes first makes no
difference to the mask, and when nothing is counted every cell presents alike. -/
theorem diffFrames_exact (ha : a.WholePairs) (hb : b.WholePairs) (hrows : a.rows = b.rows)
    (hcols : a.cols = b.cols) (hr : a.rows < 65536) (hc : a.cols < 65536) :
    (diffFrames a b).Exact a b ∧ (diffFrames b a).changedMask = (diffFrames a b).changedMask ∧
      ((diffFrames a b).cellsChanged = 0 →
        ∀ r < a.rows, ∀ c < a.cols, a.shown r c = b.shown r c) := by
  have hreport := diffFrames_report ha hb hrows hcols hr hc
  refine ⟨hreport, ?_, fun hzero r hr' c hc' => ?_⟩
  · rw [(diffFrames_of_same_size hrows hcols).2.2,
      (diffFrames_of_same_size hrows.symm hcols.symm).2.2, changedRows, changedRows, ← hrows,
      ← hcols]
    exact congrArg List.flatten (map_congr_left fun r _ => changedRow_comm b a a.cols r)
  · refine shown_eq_of_not_differs fun hdiffers => ?_
    have hcell := (hreport.marked r hr' c hc').2 (.inl hdiffers)
    rw [cellsChanged_eq_zero_iff hrows hcols hr hc] at hzero
    exact (exists_marked_iff hrows hcols).1 ⟨r, c, hcell⟩ hzero

end Report

namespace Sample

/-- A row of three columns with the given cells. -/
def frameOf (cells : List Cell) : CellGridView :=
  ⟨1, 3, fun _ c => cells.getD c .empty, .default, ⟨0, 0, true⟩, false, false⟩

/-- A wide character and then a letter, before and after the character moves by a column. -/
def wideFirst : CellGridView := frameOf [⟨'\u6f22', 2, .default, none⟩, .wideContinuation, .empty]

def wideLast : CellGridView := frameOf [.empty, ⟨'\u6f22', 2, .default, none⟩, .wideContinuation]

theorem wholePairs_frameOf {cells : List Cell}
    (hhead : ∀ c < 3, (cells.getD c .empty).isWide = true →
      c + 1 < 3 ∧ (cells.getD (c + 1) .empty).isWideContinuation = true)
    (htail : ∀ c < 3, (cells.getD c .empty).isWideContinuation = true →
      0 < c ∧ (cells.getD (c - 1) .empty).isWide = true) : (frameOf cells).WholePairs :=
  ⟨fun _ _ => hhead, fun _ _ => htail⟩

/-- Three cells change when a wide character moves by one. -/
theorem diffFrames_exact_moved : (diffFrames wideFirst wideLast).Exact wideFirst wideLast ∧
      (diffFrames wideFirst wideLast).cellsChanged = 3 := by
  have hexact := diffFrames_exact (a := wideFirst) (b := wideLast)
    (wholePairs_frameOf (by decide) (by decide)) (wholePairs_frameOf (by decide) (by decide))
    rfl rfl (by decide) (by decide)
  exact ⟨hexact.1, by decide⟩

end Sample

end Shux.Vt
