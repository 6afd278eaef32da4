/-
# Rows of cells

A row repairs the wide characters it cuts: whatever overwrites, inserts, deletes or
erases cells blanks the half of a pair it would otherwise leave behind. Every access
below is one the code makes. The lemmas about them are in `Shux.Vt.Pairs`.
-/

import Shux.Lib.Checked
import Shux.Vt.Cell

namespace Shux.Vt

open Checked

/-- A single row of terminal cells, and whether it soft-wraps into the next row. -/
structure Row where
  cells : List Cell
  wrapped : Bool
deriving DecidableEq, Repr

namespace Row

def new (cols : Nat) : Row := ⟨List.replicate cols .empty, false⟩

def len (row : Row) : Nat := row.cells.length

def get (row : Row) (col : Nat) : Option Cell := row.cells[col]?

/-- Resize the row, filling new cells with the given template. -/
def resize (row : Row) (cols : Nat) (template : Cell) : Row :=
  { row with cells := Checked.resize row.cells cols template }

/-- Return the row to the state of a new one. -/
def resetBlank (_ : Row) (cols : Nat) : Row := ⟨Checked.resize [] cols .empty, false⟩

/-- Reset all cells in the row to the given background color. -/
def reset (row : Row) (bg : Color) : Row := ⟨row.cells.map fun cell => cell.reset bg, false⟩

/-- Overwrite every cell with the alignment pattern. -/
def fillAlignmentPattern (row : Row) : Row := ⟨row.cells.map fun _ => .alignment, false⟩

/-- Overwrite one cell. -/
def setCell (row : Row) (col : Nat) (cell : Cell) : Checked Row := do
  let cells ← assign row.cells col cell
  pure { row with cells }

/-- Reset one cell when it is of a kind. -/
def resetWhen (cells : List Cell) (col : Nat) (kind : Cell → Bool) (bg : Color) :
    Checked (List Cell) :=
  update cells col fun cell => pure (if kind cell then cell.reset bg else cell)

/-- Blank the wide character that has a half at `col`. -/
def clearWidePairAround (row : Row) (col : Nat) (bg : Color) : Checked Row :=
  if row.cells.length ≤ col then pure row
  else do
    let cell ← index row.cells col
    if cell.isWideContinuation then
      let cells ← assign row.cells col (cell.reset bg)
      if 0 < col then
        let left ← sub col 1
        let cells ← resetWhen cells left Cell.isWide bg
        pure { row with cells }
      else pure { row with cells }
    else if cell.isWide then
      let cells ← assign row.cells col (cell.reset bg)
      if col + 1 < cells.length then
        let cells ← resetWhen cells (col + 1) Cell.isWideContinuation bg
        pure { row with cells }
      else pure { row with cells }
    else pure row

/-- Whether the wide character at `col` has its continuation. -/
def hasTail (cells : List Cell) (col : Nat) : Checked Bool :=
  if col + 1 < cells.length then do
    let next ← index cells (col + 1)
    pure (next.isWideContinuation && next.ch == ' ')
  else pure false

/-- Whether the continuation at `col` has its wide character. -/
def hasHead (cells : List Cell) (col : Nat) : Checked Bool :=
  if 0 < col then do
    let left ← sub col 1
    let prev ← index cells left
    pure prev.isWide
  else pure false

/-- Blank the cell at `col` when it is half of a wide character. -/
def sanitizeCell (bg : Color) (cells : List Cell) (col : Nat) : Checked (List Cell) := do
  let cell ← index cells col
  if cell.isWide then
    let tail ← hasTail cells col
    if tail then pure cells else assign cells col (cell.reset bg)
  else if cell.isWideContinuation then
    let head ← hasHead cells col
    if !head || cell.ch != ' ' then assign cells col (cell.reset bg) else pure cells
  else pure cells

/-- Blank every half of a wide character in the row, left to right. -/
def sanitizeWidePairs (row : Row) (bg : Color) : Checked Row := do
  let cells ← each (span 0 row.cells.length) row.cells (sanitizeCell bg)
  pure { row with cells }

/-- The first column an erase from `start` blanks: one earlier inside a wide character. -/
def eraseStart (cells : List Cell) (start : Nat) : Checked Nat :=
  if 0 < start then do
    let cell ← index cells start
    if cell.isWideContinuation then
      let left ← sub start 1
      let prev ← index cells left
      pure (if prev.isWide then left else start)
    else pure start
  else pure start

/-- The column an erase up to `stop` ends before: one later inside a wide character. -/
def eraseStop (cells : List Cell) (stop : Nat) : Checked Nat :=
  if stop < cells.length ∧ 0 < stop then do
    let last ← sub stop 1
    let cell ← index cells last
    if cell.isWide then
      let next ← index cells stop
      pure (if next.isWideContinuation then stop + 1 else stop)
    else pure stop
  else pure stop

/-- Erase `count` cells from `col` on, with the other halves of the wide characters at
both ends; the columns it blanked come with the row. -/
def eraseCharsExpandingWidePairs (row : Row) (col count : Nat) (bg : Color) :
    Checked (Row × Option (Nat × Nat)) :=
  let start := min col row.cells.length
  let stop := min (col + count) row.cells.length
  if stop ≤ start then pure (row, none)
  else do
    let first ← eraseStart row.cells start
    let last ← eraseStop row.cells stop
    let cells ← mapSlice row.cells first last fun cell => cell.reset bg
    pure ({ row with cells }, some (first, last))

/-- Whether the row is entirely empty. -/
def isBlank (row : Row) : Bool := row.cells.all fun cell => cell.ch == ' ' && cell.style == .default

/-- Write a character of one or two columns over what is there. -/
def writeGlyph (row : Row) (col cols : Nat) (bg : Color) (cell : Cell) : Checked Row := do
  let row ← row.clearWidePairAround col bg
  let row ← (if cell.width = 2 then row.clearWidePairAround (col + 1) bg else pure row)
  let row ← row.setCell col cell
  if cell.width = 2 ∧ col + 1 < cols then row.setCell (col + 1) .wideContinuation
  else pure row

/-- Make room for the second half of a character that became wide in place. -/
def claimSecondHalf (row : Row) (col : Nat) (bg : Color) : Checked Row := do
  let next ← index row.cells (col + 1)
  let row ← (if next.isWideContinuation then pure row else row.clearWidePairAround (col + 1) bg)
  row.setCell (col + 1) .wideContinuation

/-- Join a scalar to the character at `col`, which then takes `width` columns; the flag
says whether the payload had room for it. -/
def joinScalar (row : Row) (col width : Nat) (bg : Color) (ch : Char) :
    Checked (Row × Bool) := do
  let cell ← index row.cells col
  match cell.appendGraphemeScalar ch with
  | none => pure (row, false)
  | some joined => do
    let row ← row.setCell col { joined with width := width }
    let row ← (if width = 2 then row.claimSecondHalf col bg else pure row)
    pure (row, true)

/-- Append a scalar of no width to the character at `col`, if the row has one. -/
def appendScalar (row : Row) (col : Nat) (ch : Char) : Row × Bool :=
  match row.cells[col]?.bind (·.appendGraphemeScalar ch) with
  | none => (row, false)
  | some joined => ({ row with cells := row.cells.set col joined }, true)

/-- Copy every cell from `col` on `count` columns to the right, from the end. -/
def shiftRight (cells : List Cell) (col count : Nat) : Checked (List Cell) :=
  each (span col cells.length).reverse cells fun cells i =>
    if i + count < cells.length then do
      let cell ← index cells i
      assign cells (i + count) cell
    else pure cells

/-- Blank the cells of some columns. -/
def blankRange (cells : List Cell) (start stop : Nat) : List Cell :=
  cells.mapIdx fun i cell => if start ≤ i ∧ i < stop then .empty else cell

/-- Insert `count` blank cells at `col`; cells shifted past the right edge are lost. -/
def insertChars (row : Row) (col count : Nat) : Checked Row := do
  let row ← (if col < row.len then row.clearWidePairAround col .default else pure row)
  let cells ← shiftRight row.cells col count
  let cells := blankRange cells col (min (col + count) row.len)
  { row with cells }.sanitizeWidePairs .default

/-- Delete `actual` cells at `col`; new cells at the right edge are blank. -/
def deleteChars (row : Row) (col actual : Nat) : Checked Row := do
  let kept ← sub row.len actual
  let cells ← each (span col kept) row.cells fun cells i => do
    let cell ← index cells (i + actual)
    assign cells i cell
  let cells := blankRange cells kept row.len
  { row with cells }.sanitizeWidePairs .default

end Row

end Shux.Vt
