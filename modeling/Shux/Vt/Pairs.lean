/-
# Wide characters stay whole

A row is a tiling by single cells and by pairs of a wide cell and its continuation.
Whether it is one can be read off the widths of its columns: a two is followed by a
zero, and a zero stands only after a two. The operations on a row are followed here
through those widths, and each lemma also says which columns an operation leaves alone.
-/

import Shux.Vt.Row

namespace Shux.Vt

open Checked List

/-- A cell of width one, a wide cell, or the continuation of one. -/
def Cell.Regular (cell : Cell) : Prop := cell.width = 1 ∨ cell.width = 2 ∨ cell = .wideContinuation

/-- Widths in which every two is followed by a zero, and every zero follows a two. -/
structure Whole (w : Nat → Nat) : Prop where
  first : w 0 ≠ 0
  head : ∀ i, w i = 2 → w (i + 1) = 0
  tail : ∀ i, w (i + 1) = 0 → w i = 2

namespace Whole

variable {w w' : Nat → Nat} {col : Nat}

/-- A single cell for a single cell. -/
theorem set_single (h : Whole w) (hcol : w col = 1)
    (hw : ∀ i, w' i = if i = col then 1 else w i) : Whole w' := by
  obtain ⟨hfirst, hhead, htail⟩ := h
  refine ⟨?_, ?_, ?_⟩
  · grind
  · intro i hi
    grind
  · intro i hi
    grind

/-- A pair for two single cells. -/
theorem set_pair (h : Whole w) (hcol : w col = 1) (hnext : w (col + 1) = 1)
    (hw : ∀ i, w' i = if i = col + 1 then 0 else if i = col then 2 else w i) : Whole w' := by
  obtain ⟨hfirst, hhead, htail⟩ := h
  refine ⟨?_, ?_, ?_⟩
  · grind
  · intro i hi
    grind
  · intro i hi
    grind

/-- Single cells for a stretch that cuts no pair at either end. -/
theorem set_stretch (h : Whole w) {start stop : Nat} (hstart : w start ≠ 0) (hstop : w stop ≠ 0)
    (hw : ∀ i, w' i = if start ≤ i ∧ i < stop then 1 else w i) : Whole w' := by
  obtain ⟨hfirst, hhead, htail⟩ := h
  refine ⟨?_, ?_, ?_⟩
  · grind
  · intro i hi
    grind
  · intro i hi
    grind

/-- A single cell that becomes wide takes the column after it from whatever is there. -/
theorem widen (h : Whole w) (hcol : w col ≠ 0) (hnext : w (col + 1) ≠ 0)
    (hw : ∀ i, w' i = if i = col + 1 then 0 else if i = col then 2
      else if i = col + 2 ∧ w (col + 1) = 2 then 1 else w i) : Whole w' := by
  obtain ⟨hfirst, hhead, htail⟩ := h
  refine ⟨?_, ?_, ?_⟩
  · grind
  · intro i hi
    grind
  · intro i hi
    grind

end Whole

namespace Row

variable {i : Nat}

/-- The width of the cell in a column; one outside the row. -/
def widthAt (cells : List Cell) (i : Nat) : Nat := (cells[i]?.map Cell.width).getD 1

/-- Every cell of the row is regular. -/
def Regular (cells : List Cell) : Prop := ∀ cell ∈ cells, cell.Regular

/-- The row holds whole characters only. -/
structure Paired (cells : List Cell) : Prop where
  regular : Regular cells
  whole : Whole (widthAt cells)

/-- A row of exactly `cols` columns that holds whole characters only. -/
structure Sound (cols : Nat) (row : Row) : Prop where
  length : row.cells.length = cols
  paired : Paired row.cells

variable {cols col : Nat} {row : Row} {cells cells' : List Cell} {bg : Color} {cell : Cell}

theorem widthAt_of_some (h : cells[i]? = some cell) : widthAt cells i = cell.width := by
  rw [widthAt, h]
  rfl

theorem widthAt_of_le (h : cells.length ≤ i) : widthAt cells i = 1 := by
  rw [widthAt, List.getElem?_eq_none h]
  rfl

theorem widthAt_congr (h : cells'[i]? = cells[i]?) : widthAt cells' i = widthAt cells i := by
  rw [widthAt, widthAt, h]

theorem lt_length_of_widthAt (h : widthAt cells i ≠ 1) : i < cells.length := by
  by_contra hle
  exact h (widthAt_of_le (by omega))

theorem widthAt_set {k : Nat} (h : k < cells.length) (cell : Cell) (i : Nat) :
    widthAt (cells.set k cell) i = if i = k then cell.width else widthAt cells i := by
  by_cases hi : i = k
  · subst hi
    rw [if_pos rfl, widthAt, List.getElem?_set_self h]
    rfl
  · rw [if_neg hi, widthAt, List.getElem?_set_ne (Ne.symm hi), widthAt]

theorem regular_reset (cell : Cell) (bg : Color) : (cell.reset bg).Regular := .inl rfl

theorem Regular.set (h : Regular cells) (hcell : cell.Regular) (k : Nat) :
    Regular (cells.set k cell) := by
  intro c hc
  rcases mem_or_eq_of_mem_set hc with hc | rfl
  · exact h c hc
  · exact hcell

theorem Regular.at (h : Regular cells) (hcell : cells[i]? = some cell) : cell.Regular :=
  h cell (mem_of_getElem? hcell)

/-- A row of single cells is whole. -/
theorem paired_of_single (h : ∀ cell ∈ cells, cell.width = 1) : Paired cells := by
  have hwidth (i : Nat) : widthAt cells i = 1 := by
    cases hcell : cells[i]? with
    | none => rw [widthAt, hcell]; rfl
    | some cell => rw [widthAt_of_some hcell, h cell (mem_of_getElem? hcell)]
  refine ⟨fun cell hcell => .inl (h cell hcell), ⟨?_, ?_, ?_⟩⟩
  · rw [hwidth]
    exact one_ne_zero
  · intro i hi
    rw [hwidth] at hi
    omega
  · intro i hi
    rw [hwidth] at hi
    omega

/-- The columns that clearing the character at `col` blanks: its own, and the other half
of a wide character. -/
def Hit (w : Nat → Nat) (col i : Nat) : Prop :=
  i = col ∧ (w col = 0 ∨ w col = 2) ∨ i + 1 = col ∧ w col = 0 ∧ w i = 2 ∨
    i = col + 1 ∧ w col = 2 ∧ w i = 0

/-- What clearing the character at `col` does to a row. -/
structure ClearedAt (cells cells' : List Cell) (col : Nat) : Prop where
  length : cells'.length = cells.length
  regular : Regular cells'
  hit : ∀ i, Hit (widthAt cells) col i → widthAt cells' i = 1
  kept : ∀ i, ¬Hit (widthAt cells) col i → cells'[i]? = cells[i]?

theorem ClearedAt.of_set (hreg : Regular cells) (hcol : col < cells.length) (bg : Color)
    (hhit : ∀ i, Hit (widthAt cells) col i ↔ i = col) :
    ClearedAt cells (cells.set col (cell.reset bg)) col where
  length := length_set
  regular := hreg.set (regular_reset cell bg) col
  hit i hi := by
    rw [widthAt_set hcol, if_pos ((hhit i).mp hi)]
    rfl
  kept i hi := List.getElem?_set_ne fun h => hi ((hhit i).mpr h.symm)

theorem ClearedAt.of_set_set {j : Nat} {other : Cell} (hreg : Regular cells)
    (hcol : col < cells.length) (hj : j < cells.length) (bg : Color)
    (hhit : ∀ i, Hit (widthAt cells) col i ↔ i = col ∨ i = j) :
    ClearedAt cells ((cells.set col (cell.reset bg)).set j (other.reset bg)) col where
  length := by rw [length_set, length_set]
  regular := (hreg.set (regular_reset cell bg) col).set (regular_reset other bg) j
  hit i hi := by
    rw [widthAt_set (by rw [length_set]; exact hj), widthAt_set hcol]
    rcases (hhit i).mp hi with rfl | rfl
    · rw [if_pos rfl]
      split <;> rfl
    · rw [if_pos rfl]
      rfl
  kept i hi := by
    have hne := mt (hhit i).mpr hi
    rw [not_or] at hne
    rw [List.getElem?_set_ne (Ne.symm hne.2), List.getElem?_set_ne (Ne.symm hne.1)]

theorem ClearedAt.refl (hreg : Regular cells) (hhit : ∀ i, ¬Hit (widthAt cells) col i) :
    ClearedAt cells cells col :=
  ⟨rfl, hreg, fun i hi => absurd hi (hhit i), fun _ _ => rfl⟩

theorem ClearedAt.widthAt (h : ClearedAt cells cells' col) (i : Nat) :
    widthAt cells' i = 1 ∧ Hit (widthAt cells) col i ∨
      widthAt cells' i = widthAt cells i ∧ ¬Hit (widthAt cells) col i := by
  by_cases hi : Hit (Row.widthAt cells) col i
  · exact .inl ⟨h.hit i hi, hi⟩
  · exact .inr ⟨widthAt_congr (h.kept i hi), hi⟩

theorem ClearedAt.paired (h : ClearedAt cells cells' col) (hpaired : Paired cells) :
    Paired cells' := by
  obtain ⟨hfirst, hhead, htail⟩ := hpaired.whole
  have hw := h.widthAt
  unfold Hit at hw
  refine ⟨h.regular, ?_, ?_, ?_⟩
  · grind
  · intro i hi
    grind
  · intro i hi
    grind

theorem ClearedAt.width_self (h : ClearedAt cells cells' col) (hreg : Regular cells) :
    Row.widthAt cells' col = 1 := by
  have hcol : Row.widthAt cells col = 1 ∨ Row.widthAt cells col = 2 ∨
      Row.widthAt cells col = 0 := by
    cases hcell : cells[col]? with
    | none => exact .inl (by rw [Row.widthAt, hcell]; rfl)
    | some cell =>
      rw [widthAt_of_some hcell]
      rcases hreg.at hcell with hone | htwo | rfl
      · exact .inl hone
      · exact .inr (.inl htwo)
      · exact .inr (.inr rfl)
  have hw := h.widthAt col
  unfold Hit at hw
  omega

theorem runs_resetWhen (h : col < cells.length) (kind : Cell → Bool) (bg : Color) :
    Runs (resetWhen cells col kind bg) fun cells' => ∃ cell, cells[col]? = some cell ∧
      cells' = if kind cell then cells.set col (cell.reset bg) else cells := by
  apply Runs.bind (.index h)
  intro cell hcell
  apply Runs.bind (.pure rfl)
  rintro _ rfl
  apply (Runs.assign h).mono
  rintro _ rfl
  refine ⟨cell, hcell, ?_⟩
  split
  · rfl
  · rw [List.getElem?_eq_getElem h] at hcell
    cases hcell
    exact set_getElem_self h

/-- The other half of a character goes with it, where it is one. -/
theorem clearedAt_resetWhen (hreg : Regular cells) {cell : Cell} {col j : Nat}
    (hcol : col < cells.length) (hj : j < cells.length) (hne : col ≠ j) (kind : Cell → Bool)
    (bg : Color)
    (hboth : ∀ other, cells[j]? = some other → kind other = true →
      ∀ i, Hit (widthAt cells) col i ↔ i = col ∨ i = j)
    (halone : ∀ other, cells[j]? = some other → ¬ kind other = true →
      ∀ i, Hit (widthAt cells) col i ↔ i = col) :
    Runs (resetWhen (cells.set col (cell.reset bg)) j kind bg) fun cells' =>
      ClearedAt cells cells' col := by
  refine (runs_resetWhen (by rwa [length_set]) kind bg).mono ?_
  rintro _ ⟨other, hother, rfl⟩
  rw [List.getElem?_set_ne hne] at hother
  split
  · next hkind => exact .of_set_set hreg hcol hj bg (hboth other hother hkind)
  · next hkind => exact .of_set hreg hcol bg (halone other hother hkind)

theorem runs_clearWidePairAround (hreg : Regular row.cells) (col : Nat) (bg : Color) :
    Runs (row.clearWidePairAround col bg) fun row' =>
      ClearedAt row.cells row'.cells col ∧ row'.wrapped = row.wrapped := by
  unfold clearWidePairAround
  refine .ite (fun hcol => .pure ⟨.refl hreg fun i hi => ?_, rfl⟩) fun hcol => ?_
  · have hwidth := widthAt_of_le hcol
    unfold Hit at hi
    omega
  rw [not_le] at hcol
  refine .bind (.index hcol) fun cell hcell => ?_
  have hwidth := widthAt_of_some hcell
  refine .ite (fun hcont => ?_) fun hcont => .ite (fun hwide => ?_) fun hwide => ?_
  · -- a continuation: its wide cell, one column earlier, goes with it
    have hzero : widthAt row.cells col = 0 := hwidth.trans (beq_iff_eq.mp hcont)
    apply Runs.bind (.assign hcol)
    rintro _ rfl
    refine .ite (fun hpos => ?_) fun hfirst => .pure ⟨.of_set hreg hcol bg fun i => ?_, rfl⟩
    · refine .bind (.sub hpos) fun left hleft => .bind (P := fun cells => ClearedAt _ cells col) ?_
        fun cells hcleared => .pure ⟨hcleared, rfl⟩
      subst hleft
      refine clearedAt_resetWhen hreg hcol (by omega) (by omega) _ bg
        (fun other hother hkind i => ?_)
        fun other hother hkind i => ?_
      · have htwo : widthAt row.cells (col - 1) = 2 :=
          (widthAt_of_some hother).trans (beq_iff_eq.mp hkind)
        unfold Hit
        grind
      · have hnot : widthAt row.cells (col - 1) ≠ 2 := fun h =>
          hkind (beq_iff_eq.mpr ((widthAt_of_some hother).symm.trans h))
        unfold Hit
        grind
    · unfold Hit
      omega
  · -- a wide cell: its continuation, one column later, goes with it
    have htwo : widthAt row.cells col = 2 := hwidth.trans (beq_iff_eq.mp hwide)
    apply Runs.bind (.assign hcol)
    rintro _ rfl
    refine .ite (fun hnext => ?_) fun hlast => .pure ⟨.of_set hreg hcol bg fun i => ?_, rfl⟩
    · rw [length_set] at hnext
      refine .bind (P := fun cells => ClearedAt _ cells col) ?_
        fun cells hcleared => .pure ⟨hcleared, rfl⟩
      refine clearedAt_resetWhen hreg hcol hnext (by omega) _ bg (fun other hother hkind i => ?_)
        fun other hother hkind i => ?_
      · have hzero : widthAt row.cells (col + 1) = 0 :=
          (widthAt_of_some hother).trans (beq_iff_eq.mp hkind)
        unfold Hit
        grind
      · have hnot : widthAt row.cells (col + 1) ≠ 0 := fun h =>
          hkind (beq_iff_eq.mpr ((widthAt_of_some hother).symm.trans h))
        unfold Hit
        grind
    · rw [length_set] at hlast
      have hone : widthAt row.cells (col + 1) = 1 := widthAt_of_le (by omega)
      unfold Hit
      grind
  · refine .pure ⟨.refl hreg fun i hi => ?_, rfl⟩
    have hzero : widthAt row.cells col ≠ 0 := fun h => hcont (beq_iff_eq.mpr (hwidth.symm.trans h))
    have htwo : widthAt row.cells col ≠ 2 := fun h => hwide (beq_iff_eq.mpr (hwidth.symm.trans h))
    unfold Hit at hi
    omega

theorem runs_setCell (h : col < row.cells.length) (cell : Cell) :
    Runs (row.setCell col cell) fun row' =>
      row' = { row with cells := row.cells.set col cell } := by
  apply Runs.bind (.assign h)
  rintro _ rfl
  exact .pure rfl

theorem Sound.setCell (h : row.Sound cols) (hcol : col < cols) (hold : widthAt row.cells col = 1)
    (hnew : cell.width = 1) : Runs (row.setCell col cell) (Sound cols) := by
  have hlt : col < row.cells.length := h.length.symm ▸ hcol
  apply (runs_setCell hlt cell).mono
  rintro _ rfl
  refine ⟨length_set.trans h.length, h.paired.regular.set (.inl hnew) col, ?_⟩
  apply h.paired.whole.set_single hold
  intro i
  rw [widthAt_set hlt, hnew]

theorem Sound.clearWidePairAround (h : row.Sound cols) (col : Nat) (bg : Color) :
    Runs (row.clearWidePairAround col bg) fun row' =>
      row'.Sound cols ∧ ClearedAt row.cells row'.cells col := by
  apply (runs_clearWidePairAround h.paired.regular col bg).mono
  rintro row' ⟨hcleared, -⟩
  exact ⟨⟨hcleared.length.trans h.length, hcleared.paired h.paired⟩, hcleared⟩

/-- Two single cells next to each other take a pair. -/
theorem Sound.set_pair (h : row.Sound cols) (hnext : col + 1 < cols)
    (hold : widthAt row.cells col = 1) (hold' : widthAt row.cells (col + 1) = 1)
    (hcell : cell.width = 2) :
    Sound cols { row with cells := (row.cells.set col cell).set (col + 1) .wideContinuation } := by
  have hlt : col + 1 < row.cells.length := h.length.symm ▸ hnext
  refine ⟨by rw [length_set, length_set, h.length],
    (h.paired.regular.set (.inr (.inl hcell)) col).set (.inr (.inr rfl)) _, ?_⟩
  apply h.paired.whole.set_pair hold hold'
  intro i
  rw [widthAt_set (by rw [length_set]; exact hlt), widthAt_set (by omega), hcell]
  rfl

theorem Sound.writeGlyph (h : row.Sound cols) (hcol : col < cols)
    (hcell : cell.width = 1 ∨ cell.width = 2 ∧ col + 1 < cols) (bg : Color) :
    Runs (row.writeGlyph col cols bg cell) (Sound cols) := by
  apply Runs.bind (h.clearWidePairAround col bg)
  rintro row₁ ⟨hsound₁, hcleared₁⟩
  have hwidth₁ : widthAt row₁.cells col = 1 := hcleared₁.width_self h.paired.regular
  rcases hcell with hone | ⟨htwo, hnext⟩
  · rw [if_neg (by omega)]
    apply Runs.bind (.pure rfl)
    rintro _ rfl
    apply Runs.bind (hsound₁.setCell hcol hwidth₁ hone)
    intro row₂ hsound₂
    rw [if_neg (by omega)]
    exact .pure hsound₂
  · rw [if_pos htwo]
    apply Runs.bind (hsound₁.clearWidePairAround (col + 1) bg)
    rintro row₂ ⟨hsound₂, hcleared₂⟩
    have hwidth₂ : widthAt row₂.cells col = 1 := by
      have hw := hcleared₂.widthAt col
      omega
    have hright : widthAt row₂.cells (col + 1) = 1 := hcleared₂.width_self hsound₁.paired.regular
    have hlen : col + 1 < row₂.cells.length := hsound₂.length.symm ▸ hnext
    apply Runs.bind (runs_setCell (by omega) cell)
    rintro _ rfl
    rw [if_pos ⟨htwo, hnext⟩]
    apply (runs_setCell (by rw [length_set]; exact hlen) _).mono
    rintro _ rfl
    exact hsound₂.set_pair hnext hwidth₂ hright htwo

theorem width_of_appendGraphemeScalar {joined : Cell} {ch : Char}
    (h : cell.appendGraphemeScalar ch = some joined) : joined.width = cell.width := by
  unfold Cell.appendGraphemeScalar at h
  split at h
  · split at h
    · cases h
    · cases h
      rfl
  · cases h
    unfold Cell.setGraphemePayload
    split <;> rfl

/-- A row in which the cell at `col` was just widened takes the second half. -/
theorem runs_claimSecondHalf (h : row.Sound cols) (hnext : col + 1 < cols)
    (hold : widthAt row.cells col ≠ 0) (hcell : cell.width = 2) (bg : Color) :
    Runs (({ row with cells := row.cells.set col cell } : Row).claimSecondHalf col bg)
      (Sound cols) := by
  have hlen : col + 1 < row.cells.length := h.length.symm ▸ hnext
  have hlt : col < row.cells.length := by omega
  have hreg : Regular (row.cells.set col cell) := h.paired.regular.set (.inr (.inl hcell)) col
  have hset (i : Nat) : widthAt (row.cells.set col cell) i =
      if i = col then 2 else widthAt row.cells i := by
    rw [widthAt_set hlt, hcell]
  apply Runs.bind (.index (by rw [length_set]; exact hlen))
  intro next hnextCell
  have hnextWidth := widthAt_of_some hnextCell
  rw [hset, if_neg (by omega)] at hnextWidth
  by_cases hcont : next.isWideContinuation = true
  · -- the character was wide already
    rw [if_pos hcont]
    apply Runs.bind (.pure rfl)
    rintro _ rfl
    apply (runs_setCell (by rw [length_set]; exact hlen) _).mono
    rintro _ rfl
    have hzero : widthAt row.cells (col + 1) = 0 := hnextWidth.trans (beq_iff_eq.mp hcont)
    refine ⟨by rw [length_set, length_set, h.length], hreg.set (.inr (.inr rfl)) _, ?_⟩
    have hw (i : Nat) : widthAt ((row.cells.set col cell).set (col + 1) .wideContinuation) i =
        widthAt row.cells i := by
      rw [widthAt_set (by rw [length_set]; exact hlen), hset]
      have hcolTwo := h.paired.whole.tail col hzero
      split
      · next hi =>
        rw [hi, hzero]
        rfl
      · split
        · next hi => rw [hi, hcolTwo]
        · rfl
    rw [funext hw]
    exact h.paired.whole
  · rw [if_neg hcont]
    have hnz : widthAt row.cells (col + 1) ≠ 0 := fun hz =>
      hcont (beq_iff_eq.mpr (hnextWidth.symm.trans hz))
    apply Runs.bind (runs_clearWidePairAround hreg (col + 1) bg)
    rintro row' ⟨hcleared, -⟩
    apply (runs_setCell (by rw [hcleared.length, length_set]; exact hlen) _).mono
    rintro _ rfl
    refine ⟨by rw [length_set, hcleared.length, length_set, h.length],
      hcleared.regular.set (.inr (.inr rfl)) _, ?_⟩
    apply h.paired.whole.widen hold hnz
    intro i
    have hcw := hcleared.widthAt i
    simp only [Hit, hset] at hcw
    rw [widthAt_set (by rw [hcleared.length, length_set]; exact hlen)]
    have hafter := h.paired.whole.head (col + 1)
    split
    · rfl
    · grind

theorem Sound.joinScalar {width : Nat} {ch : Char} (h : row.Sound cols) (hcol : col < cols)
    (hold : widthAt row.cells col ≠ 0)
    (hwidth : width = 1 ∧ widthAt row.cells col = 1 ∨ width = 2 ∧ col + 1 < cols) (bg : Color) :
    Runs (row.joinScalar col width bg ch) fun out => out.1.Sound cols := by
  have hlt : col < row.cells.length := h.length.symm ▸ hcol
  apply Runs.bind (.index hlt)
  intro cell _
  cases cell.appendGraphemeScalar ch with
  | none => exact .pure h
  | some joined =>
    rcases hwidth with ⟨rfl, hone⟩ | ⟨rfl, hnext⟩
    · apply Runs.bind (h.setCell hcol hone rfl)
      intro row' hrow'
      rw [if_neg (by omega)]
      apply Runs.bind (.pure rfl)
      rintro _ rfl
      exact .pure hrow'
    · apply Runs.bind (runs_setCell hlt _)
      rintro _ rfl
      rw [if_pos rfl]
      apply Runs.bind (runs_claimSecondHalf h hnext hold rfl bg)
      intro row' hrow'
      exact .pure hrow'

theorem Sound.appendScalar {ch : Char} (h : row.Sound cols) (hold : widthAt row.cells col ≠ 0) :
    (row.appendScalar col ch).1.Sound cols := by
  unfold Row.appendScalar
  split
  · exact h
  · next joined hjoined =>
    obtain ⟨cell, hcell, happend⟩ := Option.bind_eq_some_iff.mp hjoined
    have hwidth : joined.width = cell.width := width_of_appendGraphemeScalar happend
    have hlt : col < row.cells.length := (List.getElem?_eq_some_iff.mp hcell).1
    rw [widthAt_of_some hcell] at hold
    have hregular : joined.Regular := by
      rcases h.paired.regular.at hcell with hone | htwo | rfl
      · exact .inl (hwidth.trans hone)
      · exact .inr (.inl (hwidth.trans htwo))
      · exact absurd rfl hold
    refine ⟨length_set.trans h.length, h.paired.regular.set hregular col, ?_⟩
    have hw : widthAt (row.cells.set col joined) = widthAt row.cells := by
      funext i
      rw [widthAt_set hlt, hwidth]
      split
      · next hi => rw [hi, widthAt_of_some hcell]
      · rfl
    rw [hw]
    exact h.paired.whole

theorem sound_new (cols : Nat) : (new cols).Sound cols := by
  refine ⟨length_replicate, paired_of_single ?_⟩
  intro cell hcell
  rw [eq_of_mem_replicate hcell]
  rfl

theorem Sound.reset (h : row.Sound cols) (bg : Color) : (row.reset bg).Sound cols := by
  refine ⟨(length_map _).trans h.length, paired_of_single ?_⟩
  intro cell hcell
  obtain ⟨old, -, rfl⟩ := mem_map.mp hcell
  rfl

theorem Sound.fillAlignmentPattern (h : row.Sound cols) : row.fillAlignmentPattern.Sound cols := by
  refine ⟨(length_map _).trans h.length, paired_of_single ?_⟩
  intro cell hcell
  obtain ⟨old, -, rfl⟩ := mem_map.mp hcell
  rfl

/-- The cell in a column is single, or half of a whole character. -/
def WholeAt (w : Nat → Nat) (i : Nat) : Prop :=
  (w i = 2 → w (i + 1) = 0) ∧ (w i = 0 → 0 < i ∧ w (i - 1) = 2)

/-- How far the left-to-right pass has come: behind it halves are blank and everything
else is as it was, ahead of it nothing has changed. -/
structure SanitizedTo (cells cells' : List Cell) (k : Nat) : Prop where
  length : cells'.length = cells.length
  regular : Regular cells'
  ahead : ∀ i, k ≤ i → cells'[i]? = cells[i]?
  kept : ∀ i, i < k → WholeAt (widthAt cells) i → cells'[i]? = cells[i]?
  blanked : ∀ i, i < k → ¬WholeAt (widthAt cells) i → widthAt cells' i = 1

theorem runs_hasTail (hreg : Regular cells) (col : Nat) :
    Runs (hasTail cells col) fun tail => tail = true ↔ widthAt cells (col + 1) = 0 := by
  apply Runs.ite
  · intro hnext
    apply Runs.bind (.index hnext)
    intro next hcell
    apply Runs.pure
    rw [widthAt_of_some hcell]
    rcases hreg.at hcell with hone | htwo | rfl
    · simp [Cell.isWideContinuation, hone]
    · simp [Cell.isWideContinuation, htwo]
    · simp [Cell.isWideContinuation, Cell.wideContinuation]
  · intro hlast
    apply Runs.pure
    rw [widthAt_of_le (by omega)]
    decide

theorem runs_hasHead (hcol : col < cells.length) :
    Runs (hasHead cells col) fun head => head = true ↔ 0 < col ∧ widthAt cells (col - 1) = 2 := by
  apply Runs.ite
  · intro hpos
    apply Runs.bind (.sub hpos)
    rintro _ rfl
    apply Runs.bind (.index (by omega))
    intro prev hcell
    apply Runs.pure
    rw [widthAt_of_some hcell]
    simp [Cell.isWide, hpos]
  · intro hfirst
    apply Runs.pure
    simp [hfirst]

theorem runs_sanitizeCell (hreg : Regular cells) (hcol : col < cells.length) (bg : Color) :
    Runs (sanitizeCell bg cells col) fun cells' =>
      WholeAt (widthAt cells) col ∧ cells' = cells ∨
        ¬WholeAt (widthAt cells) col ∧ ∃ cell, cells' = cells.set col (Cell.reset cell bg) := by
  have hreset (cell : Cell) (hnot : ¬WholeAt (widthAt cells) col) :
      Runs (assign cells col (cell.reset bg)) fun cells' =>
        WholeAt (widthAt cells) col ∧ cells' = cells ∨
          ¬WholeAt (widthAt cells) col ∧ ∃ cell, cells' = cells.set col (Cell.reset cell bg) := by
    apply (Runs.assign hcol).mono
    rintro _ rfl
    exact .inr ⟨hnot, cell, rfl⟩
  apply Runs.bind (.index hcol)
  intro cell hcell
  have hwidth := widthAt_of_some hcell
  apply Runs.ite
  · intro hwide
    have htwo : widthAt cells col = 2 := hwidth.trans (beq_iff_eq.mp hwide)
    apply Runs.bind (runs_hasTail hreg col)
    intro tail htail
    apply Runs.ite
    · intro ht
      exact .pure (.inl ⟨⟨fun _ => htail.mp ht, fun h => by omega⟩, rfl⟩)
    · intro ht
      exact hreset cell fun h => ht (htail.mpr (h.1 htwo))
  · intro hwide
    apply Runs.ite
    · intro hcont
      have hzero : widthAt cells col = 0 := hwidth.trans (beq_iff_eq.mp hcont)
      have hspace : cell.ch = ' ' := by
        rcases hreg.at hcell with hone | htwo | rfl
        · omega
        · omega
        · rfl
      apply Runs.bind (runs_hasHead hcol)
      intro head hhead
      rw [hspace]
      apply Runs.ite
      · intro hh
        have hfalse : head = false := by simpa using hh
        refine hreset cell fun h => ?_
        have htrue := hhead.mpr (h.2 hzero)
        rw [hfalse] at htrue
        cases htrue
      · intro hh
        have htrue : head = true := by simpa using hh
        exact .pure (.inl ⟨⟨fun h => by omega, fun _ => hhead.mp htrue⟩, rfl⟩)
    · intro hcont
      refine .pure (.inl ⟨⟨fun h => ?_, fun h => ?_⟩, rfl⟩)
      · exact absurd (beq_iff_eq.mpr (hwidth.symm.trans h)) hwide
      · exact absurd (beq_iff_eq.mpr (hwidth.symm.trans h)) hcont

/-- One step of the pass. Whether the character at `k` is whole can be read off the row
as it is by now: only a half to the left has become single, and it was not its other half. -/
theorem SanitizedTo.step {k : Nat} (h : SanitizedTo cells cells' k) (hk : k < cells.length)
    (bg : Color) :
    Runs (sanitizeCell bg cells' k) fun cells'' => SanitizedTo cells cells'' (k + 1) := by
  have hk' : k < cells'.length := h.length.symm ▸ hk
  have hself : widthAt cells' k = widthAt cells k := widthAt_congr (h.ahead k le_rfl)
  have hright : widthAt cells' (k + 1) = widthAt cells (k + 1) :=
    widthAt_congr (h.ahead (k + 1) (by omega))
  have hleft (hpos : 0 < k) (hzero : widthAt cells k = 0) :
      widthAt cells' (k - 1) = 2 ↔ widthAt cells (k - 1) = 2 := by
    by_cases hwhole : WholeAt (widthAt cells) (k - 1)
    · rw [widthAt_congr (h.kept (k - 1) (by omega) hwhole)]
    · have hblank := h.blanked (k - 1) (by omega) hwhole
      refine ⟨fun htwo => by omega, fun htwo => ?_⟩
      refine absurd ⟨fun _ => ?_, fun h => by omega⟩ hwhole
      rwa [Nat.sub_add_cancel hpos]
  have hiff : WholeAt (widthAt cells') k ↔ WholeAt (widthAt cells) k := by
    unfold WholeAt
    rw [hself, hright]
    refine and_congr_right fun _ => ?_
    refine imp_congr_right fun hzero => ?_
    refine and_congr_right fun hpos => ?_
    exact hleft hpos hzero
  apply (runs_sanitizeCell h.regular hk' bg).mono
  rintro cells'' (⟨hwhole, rfl⟩ | ⟨hnot, cell, rfl⟩)
  · refine ⟨h.length, h.regular, fun i hi => h.ahead i (by omega), ?_, ?_⟩
    · intro i hi hat
      by_cases hik : i = k
      · exact hik ▸ h.ahead k le_rfl
      · exact h.kept i (by omega) hat
    · intro i hi hat
      by_cases hik : i = k
      · exact absurd (hik ▸ hiff.mp hwhole) hat
      · exact h.blanked i (by omega) hat
  · refine ⟨length_set.trans h.length, h.regular.set (regular_reset cell bg) k, ?_, ?_, ?_⟩
    · intro i hi
      rw [List.getElem?_set_ne (by omega)]
      exact h.ahead i (by omega)
    · intro i hi hat
      have hik : i ≠ k := fun hik => hnot (hiff.mpr (hik ▸ hat))
      rw [List.getElem?_set_ne (Ne.symm hik)]
      exact h.kept i (by omega) hat
    · intro i hi hat
      rw [widthAt_set hk']
      by_cases hik : i = k
      · rw [if_pos hik]
        rfl
      · rw [if_neg hik]
        exact h.blanked i (by omega) hat

theorem SanitizedTo.paired (h : SanitizedTo cells cells' cells.length) : Paired cells' := by
  have hw (i : Nat) : WholeAt (widthAt cells) i ∧ widthAt cells' i = widthAt cells i ∨
      ¬WholeAt (widthAt cells) i ∧ widthAt cells' i = 1 := by
    by_cases hwhole : WholeAt (widthAt cells) i
    · refine .inl ⟨hwhole, widthAt_congr ?_⟩
      by_cases hi : i < cells.length
      · exact h.kept i hi hwhole
      · exact h.ahead i (by omega)
    · refine .inr ⟨hwhole, ?_⟩
      by_cases hi : i < cells.length
      · exact h.blanked i hi hwhole
      · exact widthAt_of_le (by rw [h.length]; omega)
  unfold WholeAt at hw
  refine ⟨h.regular, ?_, ?_, ?_⟩
  · have := hw 0
    omega
  all_goals
    intro i hi
    have := hw i
    have := hw (i + 1)
    simp only [Nat.add_sub_cancel] at this
    omega

/-- Sanitizing a row of regular cells leaves whole characters only, and leaves the ones
that were whole before. -/
theorem runs_sanitizeWidePairs (hreg : Regular row.cells) (bg : Color) :
    Runs (row.sanitizeWidePairs bg) fun row' => Paired row'.cells ∧
      row'.cells.length = row.cells.length ∧
      ∀ i, WholeAt (widthAt row.cells) i → row'.cells[i]? = row.cells[i]? := by
  have hloop : Runs (each (span 0 row.cells.length) row.cells (sanitizeCell bg))
      fun cells => SanitizedTo row.cells cells row.cells.length := by
    apply Runs.eachSpan (fun k cells => SanitizedTo row.cells cells k) (Nat.zero_le _)
    · exact ⟨rfl, hreg, fun _ _ => rfl, fun i hi => by omega, fun i hi => by omega⟩
    · exact fun k _ hk cells hcells => hcells.step hk bg
  apply Runs.bind hloop
  intro cells hcells
  refine .pure ⟨hcells.paired, hcells.length, ?_⟩
  intro i hwhole
  by_cases hi : i < row.cells.length
  · exact hcells.kept i hi hwhole
  · exact hcells.ahead i (by omega)

end Row

end Shux.Vt
