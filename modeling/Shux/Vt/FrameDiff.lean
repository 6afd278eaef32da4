/-
# The frame comparator

One comparator serves live grids and captured envelopes: a view gives the size, the cells
and the ambient state of a frame, and `diffFrames` reads nothing else but those. A capture
of a grid is therefore as good as the grid.
-/

import Shux.Vt.CaptureFrame

namespace Shux.Vt

open Checked Fallible

/-- The cursor facts the comparator observes, without the shape. -/
structure CursorState where
  row : Nat
  col : Nat
  visible : Bool
deriving DecidableEq, Repr

/-- A rectangle of cells and the ambient state of its terminal. -/
structure CellGridView where
  rows : Nat
  cols : Nat
  cell : Nat → Nat → Cell
  defaults : TerminalDefaultColors
  cursor : CursorState
  paletteOverridden : Bool
  altScreen : Bool

/-- Changed columns of a row, from `colStart` up to `colEnd`. -/
structure LensRowSpan where
  row : Nat
  colStart : Nat
  colEnd : Nat
deriving DecidableEq, Repr

/-- The structured delta between two frames. -/
structure FrameDiff where
  cellsChanged : Nat
  regions : List LensRowSpan
  regionsTruncated : Bool
  boundingBox : Nat × Nat × Nat × Nat
  cursorMoved : Bool
  paletteOverriddenDiffers : Bool
  geometryChanged : Bool
  changedRows : List Nat
  changedMask : List Bool
  rows : Nat
  cols : Nat
deriving DecidableEq, Repr

def maxSpans : Nat := 256

/-- Cells that differ, by value or by what a default colour stands for on either side. -/
def cellsDiffer (fgDefaultChanged bgDefaultChanged : Bool) (ca cb : Cell) : Bool :=
  ca != cb || (fgDefaultChanged && ca.style.fg == .default && cb.style.fg == .default) ||
    (bgDefaultChanged && ca.style.bg == .default && cb.style.bg == .default)

/-- A wide character and its continuation change together. -/
def pairChanged (wide changed : List Bool) (cols : Nat) : List Bool :=
  (List.range (cols - 1)).foldl (fun changed c =>
      if wide.getD c false && (changed.getD c false || changed.getD (c + 1) false)
      then (changed.set c true).set (c + 1) true else changed)
    changed

/-- The changed columns of a row. -/
def changedRow (a b : CellGridView) (cols r : Nat) : List Bool :=
  let fgDefaultChanged := a.defaults.fg != b.defaults.fg
  let bgDefaultChanged := a.defaults.bg != b.defaults.bg
  pairChanged ((List.range cols).map fun c => (a.cell r c).isWide || (b.cell r c).isWide)
    ((List.range cols).map fun c =>
      cellsDiffer fgDefaultChanged bgDefaultChanged (a.cell r c) (b.cell r c))
    cols

/-- The maximal runs of changed columns, from column `c` on with the run at hand. -/
def spansFrom : List Bool → Nat → Option Nat → List (Nat × Nat)
  | [], c, start => (start.map fun start => (start, c)).toList
  | true :: changed, c, start => spansFrom changed (c + 1) (some (start.getD c))
  | false :: changed, c, start =>
    (start.map fun start => (start, c)).toList ++ spansFrom changed (c + 1) none

/-- The delta of `b` against `a`, over the columns and rows both have. -/
def diffFrames (a b : CellGridView) : FrameDiff :=
  let rows := min a.rows b.rows
  let cols := min a.cols b.cols
  let changed := (List.range rows).map (changedRow a b cols)
  let spans := (changed.map fun row => spansFrom row 0 none).zipIdx.flatMap fun (spans, r) =>
    spans.map fun span => (r, span)
  -- the count is of thirty-two bits
  let cellsChanged := (spans.map fun (_, start, stop) => stop - start).sum % 2 ^ 32
  let regions := spans.map fun (r, start, stop) =>
    (⟨asU16 r, asU16 start, asU16 stop⟩ : LensRowSpan)
  { cellsChanged
    regions := if maxSpans < regions.length then [] else regions
    regionsTruncated := decide (maxSpans < regions.length)
    boundingBox :=
      if cellsChanged = 0 then (0, 0, 0, 0)
      else
        (asU16 ((spans.map fun (r, _, _) => r).min?.getD 0),
          asU16 ((spans.map fun (_, start, _) => start).min?.getD 0),
          asU16 ((spans.map fun (r, _, _) => r).max?.getD 0 + 1),
          asU16 ((spans.map fun (_, _, stop) => stop - 1).max?.getD 0 + 1))
    cursorMoved := a.cursor != b.cursor
    paletteOverriddenDiffers := a.paletteOverridden != b.paletteOverridden
    geometryChanged := a.rows != b.rows || a.cols != b.cols
    changedRows := (List.range rows).filter fun r => (changedRow a b cols r).any id
    changedMask := changed.flatten
    rows
    cols }

/-- A live grid with the ambient state it does not carry itself. -/
def gridFrame (g : Grid) (defaults : TerminalDefaultColors) (cursor : CursorState)
    (paletteOverridden : Bool) : CellGridView where
  rows := g.rows
  cols := g.cols
  cell := g.shownCell
  defaults := defaults
  cursor := cursor
  paletteOverridden := paletteOverridden
  altScreen := false

def maxViewCells : Nat := 16000000

section View

variable [Crates]

/-- Decode an envelope for comparison, once it has passed. -/
def FrameEnvelope.tryView (env : FrameEnvelope) : Except CaptureError CellGridView := do
  env.validate
  if maxViewCells < env.size.rows * env.size.cols then
    .error (.nonCanonical 0 (.viewTooLarge env.size.rows env.size.cols))
  else
    let cells := env.toCells
    .ok
      { rows := env.size.rows
        cols := env.size.cols
        cell := fun row col => ((cells[row]?).bind fun cells => cells[col]?).getD .empty
        defaults := env.defaults
        cursor := ⟨env.cursor.row, env.cursor.col, env.cursor.visible⟩
        paletteOverridden := env.paletteOverridden
        altScreen := env.altScreen }

variable {g : Grid} {cursor : Cursor}

/-- What the comparator reads of a cursor. -/
def Cursor.state (cursor : Cursor) : CursorState := ⟨cursor.row, cursor.col, cursor.visible⟩

/-- A view of a capture is the live frame, told which screen it is of. -/
theorem Grid.Capturable.view_fromParts (h : g.Capturable) (hrow : cursor.row < g.rows)
    (hcol : cursor.col ≤ g.cols) (defaults : TerminalDefaultColors) (alt palette : Bool)
    {view : CellGridView}
    (hview : (FrameEnvelope.fromParts g cursor defaults alt palette .new).tryView = .ok view) :
    view = { gridFrame g defaults cursor.state palette with altScreen := alt } := by
  obtain ⟨hrows, hcols⟩ := h.size_fromParts cursor defaults alt palette .new
  have hrows_lt := h.rows_lt
  have hcols_lt := h.cols_lt
  unfold FrameEnvelope.tryView at hview
  obtain ⟨⟨⟩, -, hview⟩ := bind_eq_ok.mp hview
  split at hview
  · cases hview
  · rw [h.toCells_fromParts, hrows, hcols] at hview
    cases hview
    unfold gridFrame Cursor.state
    congr 1
    · funext r c
      exact (Grid.shownCell_eq g r c).symm
    · show (⟨asU16 cursor.row, asU16 cursor.col, cursor.visible⟩ : CursorState) = _
      rw [asU16_of_lt (by omega), asU16_of_lt (by omega)]

/-- Capturing loses nothing. The envelope passes, decodes to the visible cells and is made
again from a grid made of it, and the comparator sees the capture as it sees the grid. -/
theorem Grid.Capturable.lossless (h : g.Capturable) (hrow : cursor.row < g.rows)
    (hcol : cursor.col ≤ g.cols) (defaults : TerminalDefaultColors) (alt palette : Bool) :
    (FrameEnvelope.fromParts g cursor defaults alt palette .new).validate = .ok () ∧
    (FrameEnvelope.fromParts g cursor defaults alt palette .new).toCells = g.visibleCells ∧
    (∃ g', (FrameEnvelope.fromParts g cursor defaults alt palette .new).toGrid = some g' ∧
      FrameEnvelope.fromParts g' cursor defaults alt palette .new =
        FrameEnvelope.fromParts g cursor defaults alt palette .new) ∧
    (g.rows * g.cols ≤ maxViewCells → ∃ view,
      (FrameEnvelope.fromParts g cursor defaults alt palette .new).tryView = .ok view) ∧
    ∀ view, (FrameEnvelope.fromParts g cursor defaults alt palette .new).tryView = .ok view →
      ∀ other, diffFrames view other =
        diffFrames (gridFrame g defaults cursor.state palette) other ∧
        diffFrames other view = diffFrames other (gridFrame g defaults cursor.state palette) := by
  have hvalid := h.validate_fromParts cursor defaults alt palette hrow hcol
  refine ⟨hvalid, h.toCells_fromParts cursor defaults alt palette,
    h.toGrid_fromParts cursor defaults alt palette (by omega), ?_, ?_⟩
  · intro hsmall
    obtain ⟨hrows, hcols⟩ := h.size_fromParts cursor defaults alt palette .new
    unfold FrameEnvelope.tryView
    rw [hvalid, hrows, hcols]
    exact ⟨_, if_neg (by omega)⟩
  · intro view hview other
    rw [h.view_fromParts hrow hcol defaults alt palette hview]
    exact ⟨rfl, rfl⟩

end View

/-- A row of one wide character, blue on the default background. -/
def wideFrame : Grid :=
  { Grid.new 1 2 .default with
    raw := [⟨[⟨'\u6f22', 2, ⟨.indexed 4, .default, .none⟩, none⟩, .wideContinuation], false⟩] }

/-- The widths of that row. -/
@[reducible]
def wideCrates : Crates := ⟨fun ch => some (if ch = '\u6f22' then 2 else 1), fun _ => none⟩

theorem capturable_wideFrame : @Grid.Capturable wideCrates wideFrame := by
  have hcell : ∀ cell ∈ wideFrame.raw.flatMap Row.cells,
      cell = ⟨'\u6f22', 2, ⟨.indexed 4, .default, .none⟩, none⟩ ∨ cell = .wideContinuation := by
    decide
  have hcells : ∀ row ∈ wideFrame.raw, ∀ cell ∈ row.cells,
      cell ∈ wideFrame.raw.flatMap Row.cells :=
    fun row hrow cell hmem => List.mem_flatMap.mpr ⟨row, hrow, hmem⟩
  refine @Grid.Capturable.mk wideCrates _ (by decide) (by decide) (by decide) ?_ ?_
  · intro row hrow
    have hregular : Row.Regular row.cells := fun cell hmem =>
      (hcell cell (hcells row hrow cell hmem)).elim (fun h => .inr (.inl (h ▸ rfl)))
        (fun h => .inr (.inr h))
    have hrow' : row ∈ wideFrame.raw := hrow
    rw [wideFrame, List.mem_singleton] at hrow'
    subst hrow'
    refine ⟨rfl, hregular, by decide, ?_, ?_⟩
    all_goals
      rintro (_ | _ | i) hi
      · rfl
      · cases hi
      · cases hi
  · intro row hrow cell hmem
    rcases hcell cell (hcells row hrow cell hmem) with rfl | rfl
    all_goals exact @Cell.Faithful.mk wideCrates _ ⟨nofun, nofun, nofun⟩ (by decide)

/-- The capture of a wide character passes. -/
theorem lossless_wideFrame :
    @FrameEnvelope.validate wideCrates
      (.fromParts wideFrame .new .default false false .new) = .ok () :=
  (@Grid.Capturable.lossless wideCrates _ _ capturable_wideFrame (by decide) (by decide)
    .default false false).1

end Shux.Vt
