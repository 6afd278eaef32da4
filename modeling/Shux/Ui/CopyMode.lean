/-
# Copy mode

In copy mode keys and the pointer move over the text of a pane, on the screen and in its history.
The cursor and the anchor of the selection are places in the view; the view is given by how many
lines it is scrolled back. Search goes through all lines.

Of a terminal only what it presents matters here. Sizes of a pane are `u16`, numbers of lines are
not.
-/

import Shux.Core.Text
import Shux.Lib.Find
import Shux.Ui.Viewport

namespace Shux.Ui

open Vt

/-- What a terminal presents: its lines, history first, and the grid that is their end. -/
structure Presented where
  lines : List Row
  gridRows : Nat
  gridCols : Nat
  cursorRow : Nat
  rows_le : gridRows ≤ lines.length

namespace Presented

def totalLines (vt : Presented) : Nat := vt.lines.length

def row (vt : Presented) (abs : Nat) : Option Row := vt.lines[abs]?

end Presented

inductive SearchDirection where
  | forward
  | backward
  deriving DecidableEq

/-- A search that is being typed. -/
structure SearchState where
  direction : SearchDirection
  query : Str
  deriving DecidableEq

/-- A search that was accepted. -/
structure SearchMatch where
  direction : SearchDirection
  query : Str
  deriving DecidableEq

structure CopyModeState where
  /-- Column and row of the cursor in the pane. -/
  cursor : Nat × Nat
  /-- Where the selection was begun, likewise. -/
  anchor : Option (Nat × Nat)
  /-- Lines scrolled back from the live bottom. -/
  scrollOffset : Nat
  search : Option SearchState
  lastSearch : Option SearchMatch
  pendingG : Bool
  /-- Opened by the wheel, and left when the wheel brings it back to the bottom. -/
  wheelInitiated : Bool
  deriving DecidableEq

def CopyModeState.new : CopyModeState := ⟨(0, 0), none, 0, none, none, false, false⟩

/-- What the handler of a key decided. -/
inductive CopyKey where
  | updated
  | yank
  | exit
  | ignored
  deriving DecidableEq

def thenUpdated (out : CopyModeState × Bool) : CopyModeState × CopyKey :=
  (out.1, if out.2 then .updated else .ignored)

def maxScrollOffset (totalLines paneRows : Nat) : Nat := totalLines - paneRows

/-- The first line of a view. -/
def viewStart (totalLines paneRows scrollOffset : Nat) : Nat :=
  totalLines - paneRows - min scrollOffset (maxScrollOffset totalLines paneRows)

/-- `paneViewRowOffset` as a number. -/
def shownOffset (totalRows visibleRows cursorRow : Nat) : Nat :=
  if visibleRows = 0 ∨ totalRows ≤ visibleRows then 0
  else if cursorRow < visibleRows then 0
  else min (cursorRow + 1 - visibleRows) (totalRows - visibleRows)

/-- Lines that the view spans: history and the part of the grid that the frame shows. -/
def effectiveTotalLines (vt : Presented) (paneRows : Nat) : Nat :=
  if vt.gridRows ≤ paneRows then vt.totalLines
  else vt.totalLines - vt.gridRows + (shownOffset vt.gridRows paneRows vt.cursorRow + paneRows)

/-- Rows of the view that can be read: the last one lies under a bar. -/
def readableRows (paneRows : Nat) : Nat := max (paneRows - 1) 1

def rowForView (vt : Presented) (paneRows scrollOffset viewRow : Nat) : Option Row :=
  vt.row (viewStart (effectiveTotalLines vt paneRows) paneRows scrollOffset + viewRow)

namespace CopyModeState

/-- The cursor moves in its view, and it says whether it did. -/
def moveTo (state : CopyModeState) (cursor : Nat × Nat) : CopyModeState × Bool :=
  ({ state with pendingG := false, cursor }, decide (cursor ≠ state.cursor))

def moveLeft (state : CopyModeState) (n : Nat) : CopyModeState × Bool :=
  state.moveTo (state.cursor.1 - n, state.cursor.2)

def moveRight (state : CopyModeState) (n maxCol : Nat) : CopyModeState × Bool :=
  state.moveTo (min (u16SaturatingAdd state.cursor.1 n) maxCol, state.cursor.2)

def moveUp (state : CopyModeState) (n : Nat) : CopyModeState × Bool :=
  state.moveTo (state.cursor.1, state.cursor.2 - n)

def moveDown (state : CopyModeState) (n maxRow : Nat) : CopyModeState × Bool :=
  state.moveTo (state.cursor.1, min (u16SaturatingAdd state.cursor.2 n) maxRow)

def toggleAnchor (state : CopyModeState) : CopyModeState :=
  { state with anchor := if state.anchor.isSome then none else some state.cursor }

/-- The view moves, and the cursor and the anchor keep their rows in it. -/
def scrollTo (state : CopyModeState) (scrollOffset : Nat) : CopyModeState × Bool :=
  ({ state with pendingG := false, scrollOffset }, decide (state.scrollOffset ≠ scrollOffset))

def scrollUp (state : CopyModeState) (lines totalLines paneRows : Nat) : CopyModeState × Bool :=
  state.scrollTo (min (state.scrollOffset + max lines 1) (maxScrollOffset totalLines paneRows))

def scrollDown (state : CopyModeState) (lines : Nat) : CopyModeState × Bool :=
  state.scrollTo (state.scrollOffset - max lines 1)

def clampScrollOffset (state : CopyModeState) (totalLines paneRows : Nat) : CopyModeState :=
  { state with scrollOffset := min state.scrollOffset (maxScrollOffset totalLines paneRows) }

/-- Where a view that shows a line in its middle begins. -/
def focusStart (totalLines paneRows absRow : Nat) : Nat :=
  min (absRow - (paneRows - 1) / 2) (totalLines - paneRows)

/-- Show a line in the middle of the view and put the cursor there. -/
def focusAbsoluteCell (state : CopyModeState) (totalLines paneRows absRow col : Nat) :
    CopyModeState :=
  let maxStart := totalLines - paneRows
  let start := focusStart totalLines paneRows absRow
  { state with
    scrollOffset := maxStart - start
    cursor := (col, min (absRow - start) (paneRows - 1))
    pendingG := false }

end CopyModeState

/-- What a cell shows. The second half of a wide character shows nothing of its own. -/
def shownText (cell : Cell) : Str := if cell.isWideContinuation then [] else cell.displayText

def rowText (row : Row) (paneCols : Nat) : Str := (row.cells.take paneCols).flatMap shownText

/-- The next match in a row. Its column is that of the scalar in the text of the row. -/
def searchRowForward (row : Row) (paneCols startCol : Nat) (query : Str) : Option (Nat × Nat) :=
  let text := rowText row paneCols
  if text.length ≤ startCol then none
  else (Find.find query (text.drop startCol)).map fun rel => (startCol + rel, query.length)

def searchRowBackward (row : Row) (paneCols beforeCol : Nat) (query : Str) : Option (Nat × Nat) :=
  (Find.rfind query ((rowText row paneCols).take beforeCol)).map fun col => (col, query.length)

/-- One turn through all lines, from the cursor on. -/
def searchForward (vt : Presented) (paneCols currentRow currentCol : Nat) (query : Str) :
    Option (Nat × Nat) :=
  let total := vt.totalLines
  (List.range total).findSome? fun step =>
    let rowIdx := (currentRow + step) % total
    let startCol := if step = 0 then currentCol + 1 else 0
    (vt.row rowIdx).bind fun row =>
      (searchRowForward row paneCols startCol query).map fun found => (rowIdx, found.1)

def searchBackward (vt : Presented) (paneCols currentRow currentCol : Nat) (query : Str) :
    Option (Nat × Nat) :=
  let total := vt.totalLines
  (List.range total).findSome? fun step =>
    let rowIdx := (currentRow + total - step % total) % total
    let beforeCol := if step = 0 then currentCol else paneCols
    (vt.row rowIdx).bind fun row =>
      (searchRowBackward row paneCols beforeCol query).map fun found => (rowIdx, found.1)

/-- The line the cursor is on. -/
def currentRow (vt : Presented) (paneRows : Nat) (state : CopyModeState) : Nat :=
  let totalLines := effectiveTotalLines vt paneRows
  min (viewStart totalLines paneRows state.scrollOffset + state.cursor.2) (totalLines - 1)

/-- Where a search ends up. -/
def searchFrom (vt : Presented) (paneCols paneRows : Nat) (state : CopyModeState) (query : Str)
    (direction : SearchDirection) : Option (Nat × Nat) :=
  match direction with
  | .forward => searchForward vt paneCols (currentRow vt paneRows state) state.cursor.1 query
  | .backward => searchBackward vt paneCols (currentRow vt paneRows state) state.cursor.1 query

def findAndFocus (state : CopyModeState) (paneCols paneRows : Nat) (vt : Option Presented)
    (query : Str) (direction : SearchDirection) : CopyModeState × Bool :=
  if query.isEmpty then (state, false)
  else
    match vt with
    | none => (state, false)
    | some vt =>
      let totalLines := effectiveTotalLines vt paneRows
      if totalLines = 0 then (state, false)
      else
        match searchFrom vt paneCols paneRows state query direction with
        | some (row, col) => (state.focusAbsoluteCell totalLines paneRows row (col % 65536), true)
        | none => (state, false)

def SearchDirection.opposite : SearchDirection → SearchDirection
  | .forward => .backward
  | .backward => .forward

def repeatSearch (state : CopyModeState) (paneCols paneRows : Nat) (vt : Option Presented)
    (reverse : Bool) : CopyModeState × Bool :=
  match state.lastSearch with
  | none => (state, false)
  | some last =>
    let direction := if reverse then last.direction.opposite else last.direction
    findAndFocus state paneCols paneRows vt last.query direction

abbrev Bytes := List UInt8

/-- `str::from_utf8`. -/
def fromUtf8 (bytes : Bytes) : Option Str := (String.fromUTF8? ⟨bytes.toArray⟩).map String.toList

def handleSearchKey (bytes : Bytes) (state : CopyModeState) (paneCols paneRows : Nat)
    (vt : Option Presented) : CopyModeState × CopyKey :=
  match state.search, bytes with
  | none, _ => (state, .ignored)
  | _, [] => (state, .ignored)
  | some search, first :: _ =>
    let typing := { state with search := none }
    if first = 0x0D ∨ first = 0x0A then
      if search.query.isEmpty then (typing, .ignored)
      else
        let (state, matched) :=
          findAndFocus typing paneCols paneRows vt search.query search.direction
        thenUpdated ({ state with lastSearch := some ⟨search.direction, search.query⟩ }, matched)
    else if first = 0x1B then (typing, .updated)
    else if first = 0x7F ∨ first = 0x08 then
      ({ state with search := some { search with query := search.query.dropLast } }, .updated)
    else if 0x20 ≤ first ∧ first < 0x7F then
      match fromUtf8 bytes with
      | some text => ({ state with search := some { search with query := search.query ++ text } },
          .updated)
      | none => (state, .ignored)
    else (state, .ignored)

/-- What a key asks for. -/
inductive Motion where
  | up
  | down
  | right
  | left
  | scrollUp (lines : Nat)
  | scrollDown (lines : Nat)
  | prompt (direction : SearchDirection)
  | again (reverse : Bool)
  | g
  | bottom
  | toggle
  | yank
  | exit
  | other
  deriving DecidableEq

/-- What the bytes of a key that is not a sequence ask for. -/
def plainMotion (paneRows : Nat) (first : UInt8) : Motion :=
  match first with
  | 0x68 => .left
  | 0x6A => .down
  | 0x6B => .up
  | 0x6C => .right
  | 0x2F => .prompt .forward
  | 0x3F => .prompt .backward
  | 0x6E => .again false
  | 0x4E => .again true
  | 0x02 => .scrollUp (readableRows paneRows)
  | 0x06 => .scrollDown (readableRows paneRows)
  | 0x15 => .scrollUp ((readableRows paneRows + 1) / 2)
  | 0x04 => .scrollDown ((readableRows paneRows + 1) / 2)
  | 0x67 => .g
  | 0x47 => .bottom
  | 0x76 => .toggle
  | 0x79 => .yank
  | 0x71 => .exit
  | 0x1B => .exit
  | _ => .other

/-- What a key asks for: the sequences of arrows and pages first, then its first byte. -/
def motionOf (paneRows : Nat) (bytes : Bytes) : Motion :=
  match bytes with
  | 0x1B :: 0x5B :: 0x41 :: _ => .up
  | 0x1B :: 0x5B :: 0x42 :: _ => .down
  | 0x1B :: 0x5B :: 0x43 :: _ => .right
  | 0x1B :: 0x5B :: 0x44 :: _ => .left
  | 0x1B :: 0x5B :: 0x35 :: 0x7E :: _ => .scrollUp (readableRows paneRows)
  | 0x1B :: 0x5B :: 0x36 :: 0x7E :: _ => .scrollDown (readableRows paneRows)
  | first :: _ => plainMotion paneRows first
  | [] => .other

/-- Do what a key asks for. -/
def CopyModeState.perform (state : CopyModeState) (paneCols paneRows totalLines : Nat)
    (vt : Option Presented) : Motion → CopyModeState × CopyKey
  | .up => thenUpdated (state.moveUp 1)
  | .down => thenUpdated (state.moveDown 1 (paneRows - 1))
  | .right => thenUpdated (state.moveRight 1 (paneCols - 1))
  | .left => thenUpdated (state.moveLeft 1)
  | .scrollUp lines => thenUpdated (state.scrollUp lines totalLines paneRows)
  | .scrollDown lines => thenUpdated (state.scrollDown lines)
  | .prompt direction =>
    ({ state with pendingG := false, search := some ⟨direction, []⟩ }, .updated)
  | .again reverse => thenUpdated (repeatSearch state paneCols paneRows vt reverse)
  | .g =>
    if state.pendingG then
      ({ state with
          scrollOffset := maxScrollOffset totalLines paneRows
          cursor := (0, 0)
          pendingG := false }, .updated)
    else ({ state with pendingG := true }, .ignored)
  | .bottom =>
    ({ state with scrollOffset := 0, cursor := (0, paneRows - 1), pendingG := false }, .updated)
  | .toggle => ({ state.toggleAnchor with pendingG := false }, .updated)
  | .yank => ({ state with pendingG := false }, .yank)
  | .exit => ({ state with pendingG := false }, .exit)
  | .other => ({ state with pendingG := false }, .ignored)

def handleKeyWithVt (bytes : Bytes) (state : CopyModeState) (paneCols paneRows totalLines : Nat)
    (vt : Option Presented) : CopyModeState × CopyKey :=
  if bytes.isEmpty then (state, .ignored)
  else if paneCols = 0 ∨ paneRows = 0 then (state, .ignored)
  else if state.search.isSome then handleSearchKey bytes state paneCols paneRows vt
  else
    (state.clampScrollOffset totalLines paneRows).perform paneCols paneRows totalLines vt
      (motionOf paneRows bytes)

/-- Two places, column first, in reading order. -/
def orderEndpoints (a b : Nat × Nat) : (Nat × Nat) × (Nat × Nat) :=
  if a.2 < b.2 ∨ (a.2 = b.2 ∧ a.1 ≤ b.1) then (a, b) else (b, a)

/-- `trim_end_matches(' ')`. -/
def trimSpaces (text : Str) : Str := text.rdropWhile (· = ' ')

/-- What of a row lies from one column to another, both included. -/
def rowPart (row : Row) (maxCol lo hi : Nat) : Str :=
  ((row.cells.take (min (min maxCol (row.cells.length % 65536)) (hi + 1))).drop lo).flatMap
    shownText

/-- The selected text, or the cell under the cursor. -/
def extractSelection (vt : Presented) (state : CopyModeState) (paneCols paneRows : Nat) : Str :=
  let cursor := state.cursor
  let anchor := state.anchor.getD cursor
  let (startCol, endCol) :=
    if cursor.2 = anchor.2 then
      if cursor.1 ≤ anchor.1 then (cursor.1, anchor.1) else (anchor.1, cursor.1)
    else (0, 0)
  let (start, stop) := orderEndpoints anchor cursor
  let maxRow := min paneRows (vt.gridRows % 65536)
  let maxCol := min paneCols (vt.gridCols % 65536)
  let rows := (List.range' start.2 (stop.2 + 1 - start.2)).takeWhile (· < maxRow)
  trimSpaces (rows.foldl (fun out row =>
    let lineStart := if row = start.2 then start.1 else 0
    let lineEnd := if row = stop.2 then stop.1 else maxCol - 1
    let (lo, hi) := if start.2 = stop.2 then (startCol, endCol) else (lineStart, lineEnd)
    match rowForView vt paneRows state.scrollOffset row with
    | none => out
    | some line =>
      let out := out ++ rowPart line maxCol lo hi
      if row ≠ stop.2 then trimSpaces out ++ ['\n'] else out) [])

end Shux.Ui
