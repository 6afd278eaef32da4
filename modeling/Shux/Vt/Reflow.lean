/-
# Resizing a grid

A grid that keeps its width, and the canvas of the alternate screen, are cut or filled
row by row. A grid that changes its width is reflowed: rows that wrap into one another
are joined to logical lines, and each line is laid out again at the new width. The
cursor is carried across as a display offset within its logical line.
-/

import Mathlib.Data.List.DropRight
import Shux.Vt.Grid

namespace Shux.Vt

open Checked

structure LogicalLine where
  cells : List Cell
  displayWidth : Nat

def LogicalLine.default : LogicalLine := ⟨[], 0⟩

structure CursorAnchor where
  logicalLine : Nat
  displayOffset : Nat

/-- Where a cell of a logical line went. -/
structure ReflowedCellPosition where
  offset : Nat
  row : Nat
  col : Nat
  width : Nat

/-- Where a logical line went. -/
structure ReflowedLineMap where
  start : Nat
  cells : List ReflowedCellPosition
  endRow : Nat
  endCol : Nat
  displayWidth : Nat

def ReflowedLineMap.positionForOffset (line : ReflowedLineMap) (offset : Nat) :
    Checked (Nat × Nat) :=
  let offset := min offset line.displayWidth
  if offset = line.displayWidth then pure (line.endRow, line.endCol)
  else
    let covers (cell : ReflowedCellPosition) : Bool :=
      decide (cell.offset ≤ offset) && decide (offset < cell.offset + cell.width)
    match line.cells.find? covers with
    | some cell => do
      let within ← sub offset cell.offset
      pure (cell.row, cell.col + within)
    | none => pure (line.start, 0)

/-- The cells of a row up to the last one that is not a plain space. -/
def trimDefaultTrailingCells (cells : List Cell) : List Cell :=
  cells.rdropWhile fun cell => cell.ch == ' ' && !cell.isWideContinuation

def displayWidth (cells : List Cell) : Nat := (cells.map Cell.width).sum

def displayWidthUntil (cells : List Cell) (col : Nat) : Nat :=
  displayWidth (cells.take (min col cells.length))

/-- The lines joined so far, the one being joined, and the cursor's place in them. -/
structure Gathered where
  lines : List LogicalLine
  current : LogicalLine
  anchor : Option CursorAnchor

/-- Join one row to the current line; a row that does not wrap ends it. -/
def gatherRow (cursor : Option (Nat × Nat)) (st : Gathered) (entry : Row × Nat) : Gathered :=
  let (row, absRow) := entry
  let rowCells := if row.wrapped then row.cells else trimDefaultTrailingCells row.cells
  let anchor := match cursor with
    | some (cursorRow, cursorCol) =>
      if cursorRow = absRow then
        some ⟨st.lines.length, st.current.displayWidth + displayWidthUntil row.cells cursorCol⟩
      else st.anchor
    | none => st.anchor
  let current : LogicalLine :=
    ⟨st.current.cells ++ rowCells, st.current.displayWidth + displayWidth rowCells⟩
  if row.wrapped then { st with current, anchor }
  else { lines := st.lines ++ [current], current := .default, anchor }

/-- The logical lines of a grid, and the place of the cursor in them. -/
def gatherLines (raw : List Row) (cursor : Option (Nat × Nat)) :
    List LogicalLine × Option CursorAnchor :=
  let st := raw.zipIdx.foldl (gatherRow cursor) ⟨[], .default, none⟩
  let lines := if st.current.cells.isEmpty then st.lines else st.lines ++ [st.current]
  let lines := if lines.isEmpty then [.default] else lines
  let anchor := st.anchor.map fun anchor =>
    match lines[anchor.logicalLine]? with
    | some line => { anchor with displayOffset := min anchor.displayOffset line.displayWidth }
    | none => anchor
  (lines, anchor)

/-- The rows laid out so far, the row being filled, and where its next cell goes. -/
structure Layout where
  rows : List Row
  row : Row
  col : Nat
  offset : Nat
  positions : List ReflowedCellPosition

/-- End the row being filled, which wraps, and start the next one. -/
def Layout.wrap (st : Layout) (cols : Nat) : Layout :=
  { st with rows := st.rows ++ [{ st.row with wrapped := true }], row := Row.new cols, col := 0 }

/-- Lay out one cell. A character too wide for the new width leaves a blank. -/
def layOutCell (cols : Nat) (st : Layout) (cell : Cell) : Checked Layout :=
  let width := max cell.width 1
  let st := if cols ≤ st.col then st.wrap cols else st
  if cols < width then do
    let row ← st.row.setCell st.col (cell.reset cell.style.bg)
    pure { st with
      row
      positions := st.positions ++ [⟨st.offset, st.rows.length, st.col, 1⟩]
      offset := st.offset + width
      col := st.col + 1 }
  else do
    let st := if cols < st.col + width ∧ 0 < st.col then st.wrap cols else st
    let row ← st.row.setCell st.col cell
    let row ← (if width = 2 ∧ st.col + 1 < cols then row.setCell (st.col + 1) .wideContinuation
      else pure row)
    pure { st with
      row
      positions := st.positions ++ [⟨st.offset, st.rows.length, st.col, width⟩]
      offset := st.offset + width
      col := st.col + min width cols }

/-- Lay out a logical line after the rows there are. -/
def appendReflowedLine (rows : List Row) (line : LogicalLine) (cols : Nat) :
    Checked (List Row × ReflowedLineMap) := do
  let cells := line.cells.filter fun cell => !cell.isWideContinuation
  let st ← each cells ⟨rows, Row.new cols, 0, 0, []⟩ (layOutCell cols)
  pure (st.rows ++ [st.row],
    ⟨rows.length, st.positions, st.rows.length, min st.col (cols - 1), line.displayWidth⟩)

/-- Lay out every logical line. -/
def layOutLines (lines : List LogicalLine) (cols : Nat) :
    Checked (List Row × List ReflowedLineMap) :=
  each lines ([], []) fun (rows, maps) line => do
    let (rows, map) ← appendReflowedLine rows line cols
    pure (rows, maps ++ [map])

/-- Drop blank rows from the end, at most some number of them. -/
def trimBlankBack : Nat → List Row → List Row
  | 0, raw => raw
  | n + 1, raw => if raw.getLast?.any Row.isBlank then trimBlankBack n raw.dropLast else raw

/-- Append blank rows up to a number of rows. -/
def padRows (raw : List Row) (rows cols : Nat) : List Row :=
  raw ++ List.replicate (rows - raw.length) (Row.new cols)

namespace Grid

/-- Cut or fill every row to a new width. -/
def resizeCols (g : Grid) (newCols : Nat) : Checked Grid :=
  if newCols = g.cols then pure g
  else do
    let raw ← g.raw.mapM fun row => (row.resize newCols .empty).sanitizeWidePairs .default
    pure { g with raw, cols := newCols }

/-- Drop blank rows at the bottom of the visible area, and fill up with blank ones. -/
def resizeRows (g : Grid) (newRows : Nat) : Checked Grid :=
  if newRows < g.rows then do
    let excess ← sub g.rows newRows
    pure { g with raw := padRows (trimBlankBack excess g.raw) newRows g.cols, rows := newRows }
  else if g.rows < newRows then do
    let linesNeeded ← sub newRows g.rows
    let fromScrollback := min linesNeeded g.scrollbackLen
    let newLines ← sub linesNeeded fromScrollback
    pure { g with raw := g.raw ++ List.replicate newLines (Row.new g.cols), rows := newRows }
  else pure { g with rows := newRows }

/-- Resize without column reflow. -/
def resizeCanvas (g : Grid) (newRows newCols : Nat) : Checked Grid := do
  let resized := newRows != g.rows || newCols != g.cols
  let g ← g.resizeCols newCols
  let g ← g.resizeRows newRows
  let dirty := g.dirty.resizeRows newRows
  pure { g with dirty := if resized then dirty.markAll else dirty }

def visibleCursorFromAbs (g : Grid) (absRow col : Nat) : Nat × Nat :=
  (min (absRow - g.scrollbackLen) (g.rows - 1), min col (g.cols - 1))

def absCursorForAnchor (g : Grid) (maps : List ReflowedLineMap) (anchor : CursorAnchor)
    (dropped : Nat) : Checked (Nat × Nat) :=
  match maps[anchor.logicalLine]? with
  | none => pure (g.scrollbackLen, 0)
  | some line => do
    let (absRow, col) ← line.positionForOffset anchor.displayOffset
    pure (absRow - dropped, col)

/-- The reflowed rows cut to the cap, with the number of rows dropped off the front. -/
def fitReflowed (g : Grid) (raw : List Row) (newRows newCols : Nat) : List Row × Nat :=
  let raw := padRows raw newRows newCols
  let keep := min g.scrollbackLen g.config.maxScrollback + newRows
  let raw := trimBlankBack (raw.length - keep) raw
  let raw := padRows raw newRows newCols
  let dropped := raw.length - (newRows + g.config.maxScrollback)
  (raw.drop dropped, dropped)

def resizeReflowingColumns (g : Grid) (newRows newCols : Nat) (cursor : Option (Nat × Nat)) :
    Checked (Grid × Option (Nat × Nat)) := do
  let cursorAbs := cursor.map fun (row, col) => (g.scrollbackLen + row, col)
  let (lines, anchor) := gatherLines g.raw cursorAbs
  let (raw, maps) ← layOutLines lines newCols
  let (raw, dropped) := g.fitReflowed raw newRows newCols
  let g : Grid := { g with
    raw := raw
    evicted := g.evicted + dropped
    rows := newRows
    cols := newCols
    dirty := (g.dirty.resizeRows newRows).markAll }
  match anchor with
  | none => pure (g, none)
  | some anchor => do
    let (absRow, col) ← g.absCursorForAnchor maps anchor dropped
    pure (g, some (g.visibleCursorFromAbs absRow col))

/-- Resize the grid, and carry an optional visible cursor position across. -/
def resizeWithCursor (g : Grid) (newRows newCols : Nat) (cursor : Option (Nat × Nat)) :
    Checked (Grid × Option (Nat × Nat)) :=
  if newCols ≠ g.cols ∧ 0 < newCols ∧ 0 < newRows then
    g.resizeReflowingColumns newRows newCols cursor
  else do
    let cursorAbs := cursor.map fun (row, col) => (g.scrollbackLen + row, col)
    let g ← g.resizeCanvas newRows newCols
    pure (g, cursorAbs.map fun (absRow, col) => g.visibleCursorFromAbs absRow col)

end Grid

end Shux.Vt
