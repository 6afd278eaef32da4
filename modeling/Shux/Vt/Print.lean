/-
# Printing

A printed scalar either joins the character in front of it or starts a new one at the
cursor. A new one wraps first when a wrap is pending, makes room in insert mode, and
blanks the halves of the wide characters it lands on.
-/

import Shux.Vt.Handler

namespace Shux.Vt

open Checked

def endsWithZwj (text : List Char) : Bool := text.getLast? == some '\u200d'

def isRegionalIndicator (ch : Char) : Bool :=
  decide (0x1f1e6 ≤ ch.toNat) && decide (ch.toNat ≤ 0x1f1ff)

def cellContainsSingleRegionalIndicator (cell : Cell) : Bool :=
  match cell.displayText with
  | [ch] => isRegionalIndicator ch
  | _ => false

/-- A cell that shows a character of its own. -/
def Cell.isGlyph (cell : Cell) : Bool := !cell.isWideContinuation && cell.ch != ' '

/-- One less, if there is one. -/
def checkedPred (n : Nat) : Option Nat := if n = 0 then none else some (n - 1)

namespace Handler

def cursorBlankCell (h : Handler) : Cell := ⟨' ', 1, h.cursor.style, none⟩

/-- Go to the next line, leaving this one marked as wrapped. Below the scroll region the
cursor stops at the last row. -/
def wrapToNextLine (h : Handler) : Checked Handler := do
  let h := h.clearActiveGraphemeCell
  let h := h.setCol 0
  let h ← h.onGrid fun g =>
    g.modifyRowMarked h.cursor.row fun row => pure { row with wrapped := true }
  if h.cursor.row = h.scrollRegion.bottom then
    h.onGrid fun g => g.scrollUp h.scrollRegion.top h.scrollRegion.bottom
  else if h.cursor.row + 1 < h.grid.rows then
    pure (h.setCursor { h.cursor with row := h.cursor.row + 1 })
  else pure h

/-- Carry out a pending wrap, or drop it when wrapping is off. -/
def resolvePendingWrap (h : Handler) : Checked Handler :=
  if h.cursor.autoWrapPending then
    if h.modes.autoWrap then h.wrapToNextLine
    else pure (h.setCol (h.grid.cols - 1))
  else pure h

/-- Make sure the cursor is in bounds. -/
def pullCursorIn (h : Handler) : Handler :=
  let h := if h.grid.cols ≤ h.cursor.col then
    h.setCursor { h.cursor with col := h.grid.cols - 1 } else h
  if h.grid.rows ≤ h.cursor.row then h.setCursor { h.cursor with row := h.grid.rows - 1 } else h

/-- Blank the cell under the cursor, where a wide character does not fit. -/
def blankUnderCursor (h : Handler) : Checked Handler :=
  h.onGrid fun g => g.modifyRowMarked h.cursor.row fun row => do
    let row ← row.clearWidePairAround h.cursor.col h.cursor.style.bg
    row.setCell h.cursor.col h.cursorBlankCell

/-- Drop the pending wrap, and the character under construction. -/
def endGlyph (h : Handler) : Handler :=
  (h.setCursor { h.cursor with autoWrapPending := false }).clearActiveGraphemeCell

/-- Move the cursor past a character of `width` columns. -/
def advanceCursor (h : Handler) (width : Nat) : Handler :=
  if h.grid.cols ≤ h.cursor.col + width then
    h.setCursor { h.cursor with col := h.grid.cols - 1, autoWrapPending := true }
  else h.setCursor { h.cursor with col := h.cursor.col + width }

/-- Write a character that fits at the cursor. -/
def putGlyph (h : Handler) (ch : Char) (width : Nat) : Checked Handler := do
  let h ← (if h.modes.insertMode then
      h.onGrid fun g => g.insertChars h.cursor.row h.cursor.col width
    else pure h)
  let cell : Cell := ⟨ch, width, h.cursor.style, h.cursor.extended⟩
  let h ← h.onGrid fun g => g.modifyRowMarked h.cursor.row fun row =>
    row.writeGlyph h.cursor.col g.cols h.cursor.style.bg cell
  let h := h.setActiveGraphemeCell h.cursor.row h.cursor.col
  pure (h.advanceCursor width)

/-- Write a character that starts a new cluster. -/
def startGlyph (h : Handler) (ch : Char) (width : Nat) : Checked Handler := do
  let h ← h.resolvePendingWrap
  let h := h.pullCursorIn
  if width = 2 ∧ h.grid.cols < 2 then
    let h ← h.blankUnderCursor
    pure h.endGlyph
  else if width = 2 ∧ h.grid.cols ≤ h.cursor.col + 1 then
    let h ← h.blankUnderCursor
    if h.modes.autoWrap then
      let h ← h.wrapToNextLine
      h.putGlyph ch width
    else pure h.endGlyph
  else h.putGlyph ch width

/-- The cell still accepting scalars, if it shows a character. -/
def activeGraphemePosition (h : Handler) : Checked (Option (Nat × Nat)) :=
  match h.activeGraphemeCell with
  | none => pure none
  | some (row, col) => do
    let line ← h.grid.visibleRow row
    pure (if (line.get col).any Cell.isGlyph then some (row, col) else none)

/-- The cell in front of the cursor. -/
def precedingCellPosition (h : Handler) : Checked (Option (Nat × Nat)) :=
  let source := if h.cursor.autoWrapPending then some h.cursor.col else checkedPred h.cursor.col
  match source with
  | none => pure none
  | some col => do
    let line ← h.grid.visibleRow h.cursor.row
    let source := if (line.get col).any Cell.isWideContinuation then checkedPred col else some col
    pure (source.bind fun col => (line.get col).map fun _ => (h.cursor.row, col))

/-- The cell a scalar of no width joins: the active one, else the one in front of the
cursor. -/
def joinPosition (h : Handler) : Checked (Option (Nat × Nat)) := do
  let active ← h.activeGraphemePosition
  match active with
  | some position => pure (some position)
  | none => h.precedingCellPosition

def appendZeroWidthScalar (h : Handler) (ch : Char) : Checked Handler := do
  let position ← h.joinPosition
  match position with
  | none => pure h
  | some (row, col) =>
    if h.grid.rows ≤ row ∨ h.grid.cols ≤ col then pure h
    else do
      -- taking the row for writing counts as a write, so look first
      let line ← h.grid.visibleRow row
      if (line.get col).any Cell.isGlyph then
        let (grid, appended) ← h.grid.editRowMarked row fun line => pure (line.appendScalar col ch)
        let h := h.setGrid grid
        let h := if appended then h.extendRememberedGraphic (row, col) ch else h
        pure (h.setActiveGraphemeCell row col)
      else pure h

/-- Join a scalar to a cell of a row that then takes `width` columns; the flag is false
when the payload of the cell is full. -/
def joinAt (h : Handler) (row col width : Nat) (ch : Char) : Checked (Handler × Bool) := do
  let (grid, appended) ← h.grid.editRowMarked row fun line =>
    line.joinScalar col width h.cursor.style.bg ch
  let h := h.setGrid grid
  pure (if appended then h.extendRememberedGraphic (row, col) ch else h, appended)

/-- Columns a cell takes once a scalar of `width` columns has joined it. -/
def joinedWidth (cell : Option Cell) (width : Nat) : Nat :=
  min ((cell.map fun cell => max cell.width width).getD width) 2

def tryAppendToActiveGrapheme (h : Handler) (ch : Char) (width : Nat) :
    Checked (Handler × Bool) := do
  let position ← h.activeGraphemePosition
  match position with
  | none => pure (h, false)
  | some (row, col) => do
    let line ← h.grid.visibleRow row
    let target := joinedWidth (line.get col) width
    if !(line.get col).any fun cell => cell.grapheme.any endsWithZwj then pure (h, false)
    else if target = 2 ∧ h.grid.cols ≤ col + 1 then pure (h, false)
    else
      let (h, appended) ← h.joinAt row col target ch
      if !appended then pure (h, false)
      else
        let cursor :=
          if h.grid.cols ≤ col + target then
            { h.cursor with col := h.grid.cols - 1, autoWrapPending := true }
          else { h.cursor with col := max h.cursor.col (col + target) }
        pure (h.setCursor cursor, true)

def tryAppendRegionalIndicatorPair (h : Handler) (ch : Char) : Checked (Handler × Bool) :=
  if !isRegionalIndicator ch then pure (h, false)
  else do
    let position ← h.activeGraphemePosition
    match position with
    | none => pure (h, false)
    | some (row, col) => do
      let line ← h.grid.visibleRow row
      if !(line.get col).any cellContainsSingleRegionalIndicator then pure (h, false)
      else if h.grid.cols ≤ col + 1 then pure (h, false)
      else
        let (h, appended) ← h.joinAt row col 2 ch
        if !appended then pure (h, false)
        else
          let h := h.setActiveGraphemeCell row col
          pure (h.setCursor { h.cursor with
            col := min (col + 2) (h.grid.cols - 1)
            autoWrapPending := decide (h.grid.cols ≤ col + 2) }, true)

variable [Crates]

/-- Write a character at the cursor. A scalar that is no glyph does nothing. -/
def writeChar (h : Handler) (ch : Char) : Checked Handler :=
  match Crates.width ch with
  | none => pure h
  | some width => do
    let width := min width 2
    if width = 0 then h.appendZeroWidthScalar ch
    else
      let (h, joined) ← h.tryAppendToActiveGrapheme ch width
      if joined then pure h
      else
        let (h, joined) ← h.tryAppendRegionalIndicatorPair ch
        if joined then pure h
        else (h.rememberGraphicScalar ch).startGlyph ch width

/-- How many copies a repeat may write. -/
def repeatIterations (h : Handler) (count : Nat) (source : LastGraphic) : Nat :=
  let cells := max (h.grid.rows * h.grid.cols) 1
  let budget := cells * 2 / source.scalarCount
  min (min count cells) (max budget 1)

/-- Repeat the preceding character of the data stream, scalar by scalar. -/
def repeatPrecedingChar (h : Handler) (count : Nat) : Checked Handler :=
  if count = 0 then pure h
  else
    match h.lastGraphic with
    | none => pure h
    | some source =>
      each (List.replicate (h.repeatIterations count source) source.scalars).flatten h writeChar

end Handler

end Shux.Vt
