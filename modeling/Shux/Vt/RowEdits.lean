/-
# Erasing, inserting and deleting cells

The three edits of a row that move or blank a stretch of cells. Each one keeps the row
sound and says how far to the left it reaches: what stands before that is as it was.
-/

import Shux.Vt.Pairs

namespace Shux.Vt.Row

open Checked

variable {cols col : Nat} {row : Row} {cells cells' : List Cell} {bg : Color} {cell : Cell}

theorem Sound.resize (h : row.Sound cols) (cols' : Nat) :
    Runs ((row.resize cols' .empty).sanitizeWidePairs .default) (Sound cols') := by
  have hreg : Regular (row.resize cols' .empty).cells := by
    intro cell hcell
    rcases List.mem_append.mp hcell with hcell | hcell
    · exact h.paired.regular cell (List.mem_of_mem_take hcell)
    · rw [List.eq_of_mem_replicate hcell]
      exact .inl rfl
  apply (runs_sanitizeWidePairs hreg .default).mono
  rintro row' ⟨hpaired, hlen, -⟩
  exact ⟨hlen.trans (length_resize _ _ _), hpaired⟩

theorem runs_eraseStart {start : Nat} (hpaired : Paired cells) (h : start < cells.length) :
    Runs (eraseStart cells start) fun first => first ≤ start ∧ widthAt cells first ≠ 0 := by
  obtain ⟨-, hfirst, hhead, htail⟩ := hpaired
  apply Runs.ite
  · intro hpos
    apply Runs.bind (.index h)
    intro cell hcell
    have hwidth := widthAt_of_some hcell
    apply Runs.ite
    · intro hcont
      apply Runs.bind (.sub hpos)
      rintro _ rfl
      apply Runs.bind (.index (by omega))
      intro prev hprev
      have hzero : widthAt cells start = 0 := hwidth.trans (beq_iff_eq.mp hcont)
      have htwo : widthAt cells (start - 1) = 2 :=
        htail (start - 1) (by rwa [Nat.sub_add_cancel hpos])
      have hwide : prev.isWide = true := beq_iff_eq.mpr ((widthAt_of_some hprev).symm.trans htwo)
      apply Runs.pure
      rw [if_pos hwide]
      refine ⟨by omega, ?_⟩
      rw [htwo]
      exact two_ne_zero
    · intro hcont
      exact .pure ⟨le_rfl, fun hz => hcont (beq_iff_eq.mpr (hwidth.symm.trans hz))⟩
  · intro hpos
    have hzero : start = 0 := by omega
    exact .pure ⟨le_rfl, hzero ▸ hfirst⟩

theorem runs_eraseStop {stop : Nat} (hpaired : Paired cells) (hpos : 0 < stop)
    (h : stop ≤ cells.length) :
    Runs (eraseStop cells stop) fun last =>
      stop ≤ last ∧ last ≤ cells.length ∧ widthAt cells last ≠ 0 := by
  obtain ⟨-, hfirst, hhead, htail⟩ := hpaired
  apply Runs.ite
  · rintro ⟨hstop, -⟩
    apply Runs.bind (.sub hpos)
    rintro _ rfl
    apply Runs.bind (.index (by omega))
    intro cell hcell
    have hwidth := widthAt_of_some hcell
    apply Runs.ite
    · intro hwide
      apply Runs.bind (.index hstop)
      intro next hnext
      have htwo : widthAt cells (stop - 1) = 2 := hwidth.trans (beq_iff_eq.mp hwide)
      have hzero : widthAt cells stop = 0 := by
        have := hhead (stop - 1) htwo
        rwa [Nat.sub_add_cancel hpos] at this
      have hcont : next.isWideContinuation = true :=
        beq_iff_eq.mpr ((widthAt_of_some hnext).symm.trans hzero)
      apply Runs.pure
      rw [if_pos hcont]
      refine ⟨by omega, by omega, fun hz => ?_⟩
      have := htail stop hz
      omega
    · intro hwide
      refine .pure ⟨le_rfl, h, fun hz => ?_⟩
      have htwo := htail (stop - 1) (by rwa [Nat.sub_add_cancel hpos])
      exact hwide (beq_iff_eq.mpr (hwidth.symm.trans htwo))
  · intro hedge
    refine .pure ⟨le_rfl, h, ?_⟩
    rw [widthAt_of_le (by omega)]
    exact one_ne_zero

/-- Erasing keeps a row sound, and blanks no column outside the range it reports. -/
theorem Sound.eraseCharsExpandingWidePairs (h : row.Sound cols) (col count : Nat) (bg : Color) :
    Runs (row.eraseCharsExpandingWidePairs col count bg) fun out => out.1.Sound cols ∧
      match out.2 with
      | none => out.1 = row
      | some (first, last) => ∀ i, ¬(first ≤ i ∧ i < last) → out.1.cells[i]? = row.cells[i]? := by
  unfold Row.eraseCharsExpandingWidePairs
  apply Runs.ite
  · exact fun _ => .pure ⟨h, rfl⟩
  intro hspan
  rw [not_le] at hspan
  have hlen : min (col + count) row.cells.length ≤ row.cells.length := min_le_right _ _
  apply Runs.bind (runs_eraseStart h.paired (lt_of_lt_of_le hspan hlen))
  rintro first ⟨hfirst, hfirst0⟩
  apply Runs.bind (runs_eraseStop h.paired (by omega) hlen)
  rintro last ⟨hlast, hbound, hlast0⟩
  apply Runs.bind (.mapSlice (by omega) hbound)
  rintro cells ⟨hcells, hat⟩
  apply Runs.pure
  have hw (i : Nat) : widthAt cells i =
      if first ≤ i ∧ i < last then 1 else widthAt row.cells i := by
    rw [widthAt, hat]
    split
    · next hi =>
      rw [List.getElem?_eq_getElem (by omega)]
      rfl
    · rfl
  refine ⟨⟨hcells.trans h.length, ?_, h.paired.whole.set_stretch hfirst0 hlast0 hw⟩, ?_⟩
  · intro cell hcell
    obtain ⟨i, hi⟩ := List.mem_iff_getElem?.mp hcell
    rw [hat] at hi
    split at hi
    · obtain ⟨old, -, rfl⟩ := Option.map_eq_some_iff.mp hi
      exact regular_reset old bg
    · exact h.paired.regular.at hi
  · intro i hi
    show cells[i]? = row.cells[i]?
    rw [hat, if_neg hi]

/-- Every cell of a row comes from another one. -/
def From (cells cells' : List Cell) : Prop :=
  cells'.length = cells.length ∧ ∀ cell ∈ cells', cell ∈ cells ∨ cell = .empty

theorem From.regular (h : From cells cells') (hreg : Regular cells) : Regular cells' := by
  intro cell hcell
  rcases h.2 cell hcell with hold | rfl
  · exact hreg cell hold
  · exact .inl rfl

theorem From.set (h : From cells cells') {i : Nat} (hcell : cells'[i]? = some cell) (k : Nat) :
    From cells (cells'.set k cell) := by
  refine ⟨List.length_set.trans h.1, ?_⟩
  intro c hc
  rcases List.mem_or_eq_of_mem_set hc with hc | rfl
  · exact h.2 c hc
  · exact h.2 c (List.mem_of_getElem? hcell)

theorem From.blankRange (h : From cells cells') (start stop : Nat) :
    From cells (blankRange cells' start stop) := by
  refine ⟨List.length_mapIdx.trans h.1, ?_⟩
  intro c hc
  obtain ⟨i, hi, rfl⟩ := List.mem_mapIdx.mp hc
  split
  · exact .inr rfl
  · exact h.2 _ (List.getElem_mem hi)

theorem getElem?_blankRange_of_lt {start stop i : Nat} (h : i < start) :
    (blankRange cells start stop)[i]? = cells[i]? := by
  rw [blankRange, List.getElem?_mapIdx]
  cases cells[i]? with
  | none => rfl
  | some cell => rw [Option.map_some, if_neg (by omega)]

theorem runs_shiftRight (cells : List Cell) (col count : Nat) :
    Runs (shiftRight cells col count) fun cells' =>
      From cells cells' ∧ ∀ i, i < col → cells'[i]? = cells[i]? := by
  unfold shiftRight
  apply Runs.each fun cells' => From cells cells' ∧ ∀ i, i < col → cells'[i]? = cells[i]?
  · exact ⟨⟨rfl, fun cell hcell => .inl hcell⟩, fun _ _ => rfl⟩
  · rintro i hi cells' ⟨hfrom, hkept⟩
    rw [List.mem_reverse, mem_span] at hi
    apply Runs.ite
    · intro htarget
      apply Runs.bind (.index (by omega))
      intro cell hcell
      apply (Runs.assign htarget).mono
      rintro _ rfl
      refine ⟨hfrom.set hcell _, fun j hj => ?_⟩
      rw [List.getElem?_set_ne (by omega)]
      exact hkept j hj
    · exact fun _ => .pure ⟨hfrom, hkept⟩

/-- Cells left of an edit that were whole with what follows them still are. -/
theorem wholeAt_of_kept (hpaired : Paired cells) (hkept : ∀ i, i < col → cells'[i]? = cells[i]?)
    {i : Nat} (hi : i + 1 < col) : WholeAt (widthAt cells') i := by
  have hw (j : Nat) (hj : j < col) : widthAt cells' j = widthAt cells j :=
    widthAt_congr (hkept j hj)
  constructor
  · intro htwo
    rw [hw i (by omega)] at htwo
    rw [hw (i + 1) hi]
    exact hpaired.whole.head i htwo
  · intro hzero
    rw [hw i (by omega)] at hzero
    cases i with
    | zero => exact absurd hzero hpaired.whole.first
    | succ j =>
      rw [Nat.add_sub_cancel, hw j (by omega)]
      exact ⟨by omega, hpaired.whole.tail j hzero⟩

/-- A shift followed by the repair of the row: sound, and unchanged up to the column
before the shift. -/
theorem Sound.sanitize_shifted (h : row.Sound cols) (hfrom : From row.cells cells')
    (hkept : ∀ i, i < col → cells'[i]? = row.cells[i]?) (wrapped : Bool) :
    Runs (({ cells := cells', wrapped } : Row).sanitizeWidePairs .default) fun row' =>
      row'.Sound cols ∧ ∀ i, i + 1 < col → row'.cells[i]? = row.cells[i]? := by
  apply (runs_sanitizeWidePairs (hfrom.regular h.paired.regular) .default).mono
  rintro row' ⟨hpaired, hlen, hsame⟩
  refine ⟨⟨hlen.trans (hfrom.1.trans h.length), hpaired⟩, fun i hi => ?_⟩
  exact (hsame i (wholeAt_of_kept h.paired hkept hi)).trans (hkept i (by omega))

theorem Sound.insertChars (h : row.Sound cols) (col count : Nat) :
    Runs (row.insertChars col count) fun row' =>
      row'.Sound cols ∧ ∀ i, i + 1 < col → row'.cells[i]? = row.cells[i]? := by
  have hclear : Runs (if col < row.len then row.clearWidePairAround col .default else pure row)
      fun row' => row'.Sound cols ∧ ∀ i, i + 1 < col → row'.cells[i]? = row.cells[i]? := by
    apply Runs.ite
    · intro _
      apply (h.clearWidePairAround col .default).mono
      rintro row' ⟨hsound, hcleared⟩
      refine ⟨hsound, fun i hi => hcleared.kept i ?_⟩
      unfold Hit
      omega
    · exact fun _ => .pure ⟨h, fun _ _ => rfl⟩
  apply Runs.bind hclear
  rintro row₁ ⟨hsound₁, hkept₁⟩
  apply Runs.bind (runs_shiftRight row₁.cells col count)
  rintro cells ⟨hfrom, hkept⟩
  have hblank (i : Nat) (hi : i < col) :
      (blankRange cells col (min (col + count) row₁.len))[i]? = row₁.cells[i]? :=
    (getElem?_blankRange_of_lt hi).trans (hkept i hi)
  apply (hsound₁.sanitize_shifted (hfrom.blankRange _ _) hblank _).mono
  rintro row' ⟨hsound, hsame⟩
  exact ⟨hsound, fun i hi => (hsame i hi).trans (hkept₁ i hi)⟩

theorem Sound.deleteChars {actual : Nat} (h : row.Sound cols) (hactual : col + actual ≤ cols) :
    Runs (row.deleteChars col actual) fun row' =>
      row'.Sound cols ∧ ∀ i, i + 1 < col → row'.cells[i]? = row.cells[i]? := by
  have hlen : row.len = cols := h.length
  apply Runs.bind (.sub (by omega))
  rintro _ rfl
  have hloop : Runs (each (span col (row.len - actual)) row.cells fun cells i => do
      let cell ← index cells (i + actual)
      assign cells i cell) fun cells =>
        From row.cells cells ∧ ∀ i, i < col → cells[i]? = row.cells[i]? := by
    apply Runs.each fun cells => From row.cells cells ∧ ∀ i, i < col → cells[i]? = row.cells[i]?
    · exact ⟨⟨rfl, fun cell hcell => .inl hcell⟩, fun _ _ => rfl⟩
    · rintro i hi cells ⟨hfrom, hkept⟩
      rw [mem_span] at hi
      have hcells : cells.length = row.len := hfrom.1
      apply Runs.bind (.index (by omega))
      intro cell hcell
      apply (Runs.assign (by omega)).mono
      rintro _ rfl
      refine ⟨hfrom.set hcell _, fun j hj => ?_⟩
      rw [List.getElem?_set_ne (by omega)]
      exact hkept j hj
  apply Runs.bind hloop
  rintro cells ⟨hfrom, hkept⟩
  refine h.sanitize_shifted (hfrom.blankRange _ _) (fun i hi => ?_) _
  exact (getElem?_blankRange_of_lt (by omega)).trans (hkept i hi)

end Shux.Vt.Row
