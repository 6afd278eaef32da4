/-
# What a masked capture depends on

A mask redacts columns of a row, and a wide character that straddles its edge as a whole. Two
frames that agree outside the redacted columns are captured alike, as long as their cursors
are. A cursor inside a mask is moved to the leftmost column of the rectangles that cover it,
which two cursors of one masked region need not share.
-/

import Shux.Vt.CaptureCanon

namespace Shux.Vt

open List FrameEnvelope

/-- A column that is masked, or half of a wide character whose other half is. -/
def Grid.redacted (g : Grid) (masks : MaskSet) (r c : Nat) : Bool :=
  masks.masked (asU16 r) (asU16 c) ||
    ((g.shownCell r c).isWide && masks.masked (asU16 r) (asU16 (c + 1))) ||
    (decide (0 < c) && (g.shownCell r (c - 1)).isWide && masks.masked (asU16 r) (asU16 (c - 1)))

/-- Every visible row holds whole characters only. -/
def Grid.WholeRows (g : Grid) : Prop := ∀ row ∈ g.raw.drop g.scrollbackLen, row.Sound g.cols

/-- One step of the pass that widens a mask to whole characters. -/
def widenMask (wide : Nat → Bool) (cols : Nat) (m : List Bool) (c : Nat) : List Bool :=
  if wide c && decide (c + 1 < cols) && (m.getD c false || m.getD (c + 1) false)
  then (m.set c true).set (c + 1) true else m

section Widen

variable {wide base : Nat → Bool} {cols : Nat}

/-- What the pass has made of a column once it is before column `k`. -/
def widened (wide base : Nat → Bool) (k c : Nat) : Bool :=
  base c || (wide c && decide (c < k) && base (c + 1)) ||
    (decide (0 < c) && wide (c - 1) && decide (c - 1 < k) && base (c - 1))

theorem getD_set (m : List Bool) (i c : Nat) (hi : i < m.length) :
    (m.set i true).getD c false = if c = i then true else m.getD c false := by
  rw [getD_eq_getElem?_getD, getD_eq_getElem?_getD, getElem?_set]
  by_cases hc : i = c
  · subst hc
    rw [if_pos rfl, if_pos hi, if_pos rfl]
    rfl
  · rw [if_neg hc, if_neg fun h => hc h.symm]

theorem widened_succ_of_ne {k c : Nat} (hself : c ≠ k) (hnext : c ≠ k + 1) :
    widened wide base (k + 1) c = widened wide base k c := by
  have hlt : (c < k + 1) = (c < k) := propext (by omega)
  unfold widened
  by_cases hpos : 0 < c
  · have hlt' : (c - 1 < k + 1) = (c - 1 < k) := propext (by omega)
    simp only [hlt, hlt']
  · simp only [hlt, decide_eq_false hpos, Bool.false_and]

theorem widened_succ_of_not_wide {k : Nat} (hwide : wide k = false) (c : Nat) :
    widened wide base (k + 1) c = widened wide base k c := by
  by_cases hself : c = k
  · subst hself
    unfold widened
    by_cases hpos : 0 < c
    · have hlt' : (c - 1 < c + 1) = (c - 1 < c) := propext (by omega)
      simp only [hwide, hlt', Bool.false_and]
    · simp only [hwide, decide_eq_false hpos, Bool.false_and]
  · by_cases hnext : c = k + 1
    · subst hnext
      unfold widened
      simp [hwide]
    · exact widened_succ_of_ne hself hnext

/-- The two columns of a wide character before and after its step. -/
theorem widened_wide {k : Nat} (hwide : wide k = true) (hafter : wide (k + 1) = false)
    (hbefore : 0 < k → wide (k - 1) = false) :
    (widened wide base k k = base k ∧ widened wide base k (k + 1) = base (k + 1)) ∧
      widened wide base (k + 1) k = (base k || base (k + 1)) ∧
      widened wide base (k + 1) (k + 1) = (base k || base (k + 1)) := by
  have hleft : (decide (0 < k) && wide (k - 1)) = false := by
    by_cases hpos : 0 < k
    · rw [hbefore hpos, Bool.and_false]
    · rw [decide_eq_false hpos, Bool.false_and]
  unfold widened
  refine ⟨⟨?_, ?_⟩, ?_, ?_⟩
  · simp [hleft]
  · simp [hafter]
  · simp [hleft, hwide]
  · simp [hafter, hwide, Bool.or_comm]

/-- A step widens the mask at its column, given that wide characters do not touch. -/
theorem widenMask_spec (hapart : ∀ c, wide c = true → wide (c + 1) = false)
    (hedge : ∀ c, wide c = true → c + 1 < cols) {k : Nat} {m : List Bool}
    (hlen : m.length = cols) (hm : ∀ c, c < cols → m.getD c false = widened wide base k c) :
    (widenMask wide cols m k).length = cols ∧
      ∀ c, c < cols → (widenMask wide cols m k).getD c false = widened wide base (k + 1) c := by
  unfold widenMask
  by_cases hwide : wide k = true
  · have hnext := hedge k hwide
    have hbefore : 0 < k → wide (k - 1) = false := by
      intro hpos
      by_contra hprev
      have hclash := hapart (k - 1) (Bool.eq_true_of_not_eq_false hprev)
      rw [Nat.sub_add_cancel hpos, hwide] at hclash
      cases hclash
    obtain ⟨⟨hself, htail⟩, hself', htail'⟩ :=
      @widened_wide wide base k hwide (hapart k hwide) hbefore
    rw [hwide, decide_eq_true hnext, Bool.true_and, Bool.true_and, hm k (by omega), hself,
      hm (k + 1) hnext, htail]
    split
    · next hor =>
      refine ⟨by rw [length_set, length_set, hlen], fun c hc => ?_⟩
      rw [getD_set _ _ _ (by rw [length_set]; omega), getD_set _ _ _ (by omega)]
      by_cases hcnext : c = k + 1
      · rw [if_pos hcnext, hcnext, htail', hor]
      · by_cases hck : c = k
        · rw [if_neg hcnext, if_pos hck, hck, hself', hor]
        · rw [if_neg hcnext, if_neg hck, hm c hc, widened_succ_of_ne hck hcnext]
    · next hor =>
      rw [Bool.not_eq_true] at hor
      obtain ⟨hzero, hzero'⟩ := Bool.or_eq_false_iff.mp hor
      refine ⟨hlen, fun c hc => ?_⟩
      rw [hm c hc]
      by_cases hcnext : c = k + 1
      · rw [hcnext, htail, htail', hor, hzero']
      · by_cases hck : c = k
        · rw [hck, hself, hself', hor, hzero]
        · exact (widened_succ_of_ne hck hcnext).symm
  · rw [Bool.not_eq_true] at hwide
    rw [hwide, Bool.false_and, Bool.false_and, if_neg Bool.false_ne_true]
    exact ⟨hlen, fun c hc => (hm c hc).trans (widened_succ_of_not_wide hwide c).symm⟩

/-- The pass widens a mask to whole characters. -/
theorem foldl_widenMask (hapart : ∀ c, wide c = true → wide (c + 1) = false)
    (hedge : ∀ c, wide c = true → c + 1 < cols) {m : List Bool} (hlen : m.length = cols)
    (hm : ∀ c, c < cols → m.getD c false = base c) (k : Nat) :
    ((range k).foldl (widenMask wide cols) m).length = cols ∧
      ∀ c, c < cols →
        ((range k).foldl (widenMask wide cols) m).getD c false = widened wide base k c := by
  induction k with
  | zero =>
    refine ⟨hlen, fun c hc => (hm c hc).trans ?_⟩
    unfold widened
    simp
  | succ k ih =>
    rw [range_succ, foldl_append, foldl_cons, foldl_nil]
    exact widenMask_spec hapart hedge ih.1 ih.2

end Widen

namespace Grid

variable {g g' : Grid} {masks : MaskSet} {r : Nat}

theorem width_shownCell (h : g.WholeRows) (r : Nat) :
    Whole (fun c => (g.shownCell r c).width) ∧ ∀ c, g.cols ≤ c → (g.shownCell r c).width = 1 := by
  have hempty : Whole fun _ => Cell.empty.width := ⟨by decide, nofun, nofun⟩
  have hshown : g.shownCell r =
      fun c => (((g.raw.drop g.scrollbackLen)[r]?).bind fun row => row.cells[c]?).getD .empty := by
    funext c
    unfold shownCell Grid.row Row.get
    rw [getElem?_drop]
  rw [hshown]
  cases hrow : (g.raw.drop g.scrollbackLen)[r]? with
  | none => exact ⟨hempty, fun _ _ => rfl⟩
  | some row =>
    have hsound := h row (mem_of_getElem? hrow)
    have hwidth : ∀ c, ((((some row : Option Row).bind fun row => row.cells[c]?).getD
        .empty : Cell).width) = Row.widthAt row.cells c := by
      intro c
      unfold Row.widthAt
      rw [Option.bind_some]
      cases row.cells[c]? <;> rfl
    refine ⟨?_, fun c hc => ?_⟩
    · simp only [hwidth]
      exact hsound.paired.whole
    · rw [hwidth]
      unfold Row.widthAt
      rw [getElem?_eq_none (by rw [hsound.length]; exact hc)]
      rfl

theorem isWide_iff {cell : Cell} : cell.isWide = true ↔ cell.width = 2 := beq_iff_eq

theorem masked_of_anyInRow {row col : Nat} (h : masks.anyInRow row = false) :
    masks.masked row col = false := by
  unfold MaskSet.anyInRow at h
  unfold MaskSet.masked MaskSet.covers
  rw [any_eq_false] at h ⊢
  intro rect hmem
  rw [Bool.not_eq_true, (Bool.not_eq_true _).mp (h rect hmem), Bool.false_and, Bool.false_and]

/-- The columns the encoder masks are the redacted ones. -/
theorem maskedCols_eq (h : g.WholeRows) {c : Nat} (hc : c < g.cols) :
    (masks.anyInRow (asU16 r) && (if masks.anyInRow (asU16 r) then maskedCols g r g.cols masks
      else []).getD c false) = g.redacted masks r c := by
  obtain ⟨hwhole, hpast⟩ := width_shownCell h r
  cases hany : masks.anyInRow (asU16 r) with
  | false =>
    unfold redacted
    rw [masked_of_anyInRow hany, masked_of_anyInRow hany, masked_of_anyInRow hany, Bool.and_false,
      Bool.and_false]
    rfl
  | true =>
    have hapart : ∀ c,
        (g.shownCell r c).isWide = true → (g.shownCell r (c + 1)).isWide = false := by
      intro c hwide
      have hzero := hwhole.head c (isWide_iff.mp hwide)
      unfold Cell.isWide
      rw [hzero]
      rfl
    have hedge : ∀ c, (g.shownCell r c).isWide = true → c + 1 < g.cols := by
      intro c hwide
      have hzero := hwhole.head c (isWide_iff.mp hwide)
      by_contra hout
      rw [hpast (c + 1) (by omega)] at hzero
      cases hzero
    have hbase : ∀ c, c < g.cols → ((range g.cols).map fun c =>
        masks.masked (asU16 r) (asU16 c)).getD c false = masks.masked (asU16 r) (asU16 c) := by
      intro c hc
      rw [getD_eq_getElem?_getD, getElem?_map, getElem?_range hc]
      rfl
    have hlen : ((range g.cols).map fun c =>
        masks.masked (asU16 r) (asU16 c)).length = g.cols := by
      rw [length_map, length_range]
    have hpass := (foldl_widenMask hapart hedge hlen hbase g.cols).2 c hc
    rw [if_pos rfl, Bool.true_and]
    refine hpass.trans ?_
    unfold widened redacted
    rw [decide_eq_true hc, decide_eq_true (show c - 1 < g.cols by omega), Bool.and_true,
      Bool.and_true]

/-- The loop over the columns reads the cells it does not mask. -/
theorem encodeFrom_congr {cellAt cellAt' : Nat → Cell} {masked masked' : Nat → Bool} {cols : Nat}
    (hmasked : ∀ c, c < cols → masked' c = masked c)
    (hcells : ∀ c, c < cols → masked c = false → cellAt' c = cellAt c) (e : RowEncoder)
    (col : Nat) :
    RowEncoder.encodeFrom cellAt' masked' cols e col =
      RowEncoder.encodeFrom cellAt masked cols e col := by
  -- induction on the columns ahead, of which a wide character takes two
  induction hn : cols - col using Nat.strong_induction_on generalizing e col with
  | _ n ih =>
    subst hn
    rw [RowEncoder.encodeFrom.eq_def cellAt', RowEncoder.encodeFrom.eq_def cellAt]
    by_cases hcol : col < cols
    · rw [if_pos hcol, if_pos hcol, hmasked col hcol]
      cases hat : masked col with
      | true =>
        rw [if_pos rfl, if_pos rfl]
        exact ih _ (by omega) _ _ rfl
      | false =>
        rw [if_neg Bool.false_ne_true, if_neg Bool.false_ne_true, hcells col hcol hat]
        dsimp only
        split
        · exact ih _ (by omega) _ _ rfl
        · split
          · exact ih _ (by omega) _ _ rfl
          · exact ih _ (by split <;> omega) _ _ rfl
    · rw [if_neg hcol, if_neg hcol]

/-- Rows that agree outside the redacted columns are encoded alike. -/
theorem buildRowRuns_masked (h : g.WholeRows) (h' : g'.WholeRows) (hcols : g'.cols = g.cols)
    (hredacted : ∀ c, c < g.cols → g'.redacted masks r c = g.redacted masks r c)
    (hcells : ∀ c, c < g.cols → g.redacted masks r c = false → g'.shownCell r c = g.shownCell r c) :
    buildRowRuns g' r g'.cols masks = buildRowRuns g r g.cols masks := by
  unfold buildRowRuns
  dsimp only
  rw [encodeFrom_congr (fun c hc => ?_) (fun c hc hat => ?_) _ 0, hcols]
  · rw [maskedCols_eq h' hc]
    rw [hcols] at hc
    rw [hredacted c hc]
    exact (maskedCols_eq h hc).symm
  · rw [hcols] at hc
    exact hcells c hc ((maskedCols_eq h hc).symm.trans hat)

end Grid

/-- Cursors that a capture does not tell apart: they are in the same place, or the rectangles
that cover them start at the same column. -/
structure MaskSet.CursorsAlike (masks : MaskSet) (cursor cursor' : Cursor) : Prop where
  row : cursor'.row = cursor.row
  visible : cursor'.visible = cursor.visible
  shape : cursor'.shape = cursor.shape
  col : cursor'.col = cursor.col ∨ ∃ start,
    masks.cursorRedactionCol (asU16 cursor.row) (asU16 cursor.col) = some start ∧
    masks.cursorRedactionCol (asU16 cursor.row) (asU16 cursor'.col) = some start

/-- Frames that agree outside the redacted columns are captured alike. -/
theorem fromParts_masked {g g' : Grid} {cursor cursor' : Cursor} {masks : MaskSet}
    (h : g.WholeRows) (h' : g'.WholeRows) (hrows : g'.rows = g.rows) (hcols : g'.cols = g.cols)
    (hredacted : ∀ r, r < g.rows → ∀ c, c < g.cols → g'.redacted masks r c = g.redacted masks r c)
    (hcells : ∀ r, r < g.rows → ∀ c, c < g.cols → g.redacted masks r c = false →
      g'.shownCell r c = g.shownCell r c)
    (hcursor : masks.CursorsAlike cursor cursor') (defaults : TerminalDefaultColors)
    (alt palette : Bool) :
    fromParts g' cursor' defaults alt palette masks =
      fromParts g cursor defaults alt palette masks := by
  have hcol : (masks.cursorRedactionCol (asU16 cursor.row) (asU16 cursor'.col)).getD
        (asU16 cursor'.col) =
      (masks.cursorRedactionCol (asU16 cursor.row) (asU16 cursor.col)).getD (asU16 cursor.col) := by
    rcases hcursor.col with hsame | ⟨start, hstart, hstart'⟩
    · rw [hsame]
    · rw [hstart, hstart']
      rfl
  have hruns : (range g'.rows).map (fun r =>
        (⟨asU16 r, buildRowRuns g' r g'.cols masks⟩ : RowRepr)) =
      (range g.rows).map fun r => ⟨asU16 r, buildRowRuns g r g.cols masks⟩ := by
    rw [hrows]
    refine map_congr_left fun r hr => ?_
    rw [mem_range] at hr
    rw [Grid.buildRowRuns_masked h h' hcols (hredacted r hr) (hcells r hr)]
  unfold fromParts
  rw [hruns, hcursor.row, hcol, hcursor.visible, hcursor.shape]
  simp only [hrows, hcols]

/-- Rows of narrow cells hold whole characters. -/
theorem wholeRows_of_narrow {g : Grid} (h : ∀ row ∈ g.raw, row.cells.length = g.cols ∧
    ∀ cell ∈ row.cells, cell.width = 1) : g.WholeRows := by
  intro row hmem
  obtain ⟨hlen, hcells⟩ := h row (mem_of_mem_drop hmem)
  have hwidth : ∀ i, Row.widthAt row.cells i = 1 := by
    intro i
    unfold Row.widthAt
    cases hat : row.cells[i]? with
    | none => rfl
    | some cell => exact hcells cell (mem_of_getElem? hat)
  refine ⟨hlen, fun cell hcell => .inl (hcells cell hcell), ?_, fun i hi => ?_, fun i hi => ?_⟩
  · rw [hwidth]
    decide
  · rw [hwidth] at hi
    cases hi
  · rw [hwidth] at hi
    cases hi

/-- A grid of one row that shows a text. -/
def secretFrame (text : String) : Grid :=
  { Grid.new 1 6 .default with raw := [⟨text.toList.map fun ch => ⟨ch, 1, .default, none⟩, false⟩] }

/-- Two secrets of two letters and three, each with its cursor behind it, under one mask. -/
theorem fromParts_masked_secret :
    fromParts (secretFrame "> abc ") { Cursor.new with col := 5 } .default false false
        ⟨[⟨0, 2, 4⟩]⟩ =
      fromParts (secretFrame "> xy  ") { Cursor.new with col := 4 } .default false false
        ⟨[⟨0, 2, 4⟩]⟩ :=
  @fromParts_masked (secretFrame "> xy  ") (secretFrame "> abc ") { Cursor.new with col := 4 }
    { Cursor.new with col := 5 } ⟨[⟨0, 2, 4⟩]⟩ (wholeRows_of_narrow (by decide))
    (wholeRows_of_narrow (by decide)) rfl rfl (by decide) (by decide)
    ⟨rfl, rfl, rfl, .inr ⟨2, by decide, by decide⟩⟩ .default false false

/-- One masked region of a row, in two rectangles side by side. -/
def adjoiningMasks : MaskSet := ⟨[⟨0, 0, 2⟩, ⟨0, 2, 2⟩]⟩

/-- Two cursors inside one masked region are captured in two columns. -/
theorem adjoiningMasks_cursor :
    (∀ c, c < 4 → adjoiningMasks.masked 0 c = true) ∧
    fromParts (Grid.new 1 4 .default) { Cursor.new with col := 1 } .default false false
        adjoiningMasks ≠
      fromParts (Grid.new 1 4 .default) { Cursor.new with col := 3 } .default false
        false adjoiningMasks := by
  refine ⟨by decide, fun hsame => ?_⟩
  have hcol := congrArg (fun env : FrameEnvelope => env.cursor.col) hsame
  exact absurd hcol (by decide)

end Shux.Vt
