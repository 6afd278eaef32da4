/-
# The screen behind the parser

What a control sequence reads and writes: the live grid and cursor, the modes, the
scroll region, the title and the default colours, the charsets and tab stops, and the
text that is still being put together. Grid, cursor, title and colours are components of
the presented frame. A write to one of them notes that it was touched, so that the
terminal can take the snapshot synchronized output owes before the first write.
-/

import Shux.Vt.Grid

namespace Shux.Vt

open Checked

/-- Mutable horizontal tab-stop state. -/
structure TabStops where
  stops : List Bool
  extendDefaults : Bool
deriving DecidableEq, Repr

namespace TabStops

def defaultStop (col : Nat) : Bool := decide (0 < col) && col % 8 == 0

def new (cols : Nat) : TabStops := ⟨(List.range cols).map defaultStop, true⟩

def reset (_ : TabStops) (cols : Nat) : TabStops := new cols

def resize (tabs : TabStops) (cols : Nat) : TabStops :=
  if cols < tabs.stops.length then { tabs with stops := tabs.stops.take cols }
  else
    { tabs with
      stops := tabs.stops ++ (span tabs.stops.length cols).map fun col =>
        tabs.extendDefaults && defaultStop col }

def set (tabs : TabStops) (col : Nat) : TabStops := { tabs with stops := tabs.stops.set col true }

def clearCurrent (tabs : TabStops) (col : Nat) : TabStops :=
  { tabs with stops := tabs.stops.set col false }

def clearAll (tabs : TabStops) : TabStops := ⟨tabs.stops.map fun _ => false, false⟩

def nextAfter (tabs : TabStops) (col : Nat) : Option Nat :=
  ((tabs.stops.zipIdx.drop (col + 1)).find? (·.1)).map (·.2)

def prevBefore (tabs : TabStops) (col : Nat) : Option Nat :=
  ((tabs.stops.zipIdx.take col).reverse.find? (·.1)).map (·.2)

/-- Follow stops some number of times, and end at `edge` when there are no more. -/
def walk (stop : Nat → Option Nat) (edge : Nat) : Nat → Nat → Nat
  | 0, current => current
  | n + 1, current =>
    match stop current with
    | none => edge
    | some next => walk stop edge n next

def nextFrom (tabs : TabStops) (col count : Nat) : Checked Nat :=
  if tabs.stops.isEmpty then pure 0
  else do
    let last ← sub tabs.stops.length 1
    pure (walk tabs.nextAfter last (max count 1) (min col last))

def prevFrom (tabs : TabStops) (col count : Nat) : Checked Nat :=
  if tabs.stops.isEmpty then pure 0
  else do
    let last ← sub tabs.stops.length 1
    pure (walk tabs.prevBefore 0 (max count 1) (min col last))

end TabStops

/-- GL charset slot selected by SI and SO. -/
inductive CharsetSlot where
  | g0
  | g1
deriving DecidableEq, Repr

/-- Supported printable charset designation. -/
inductive TerminalCharset where
  | ascii
  | decSpecialGraphics
deriving DecidableEq, Repr

structure TerminalCharsets where
  g0 : TerminalCharset
  g1 : TerminalCharset
  active : CharsetSlot
deriving DecidableEq, Repr

def TerminalCharsets.default : TerminalCharsets := ⟨.ascii, .ascii, .g0⟩

/-- The glyphs of DEC special graphics, from the underscore on. -/
def decSpecialGraphicsTable : List Char :=
  [' ', '◆', '▒', '␉', '␌', '␍', '␊', '°', '±', '␤', '␋', '┘', '┐', '┌', '└', '┼', '⎺', '⎻', '─',
    '⎼', '⎽', '├', '┤', '┴', '┬', '│', '≤', '≥', 'π', '≠', '£', '·']

def decSpecialGraphics (ch : Char) : Option Char :=
  if '_'.toNat ≤ ch.toNat then decSpecialGraphicsTable[ch.toNat - '_'.toNat]? else none

inductive CursorShape where
  | block
  | underline
  | bar
deriving DecidableEq, Repr

/-- Saved cursor state. -/
structure SavedCursor where
  row : Nat
  col : Nat
  style : CellStyle
  extended : Option ExtendedAttrs
  autoWrapPending : Bool
  originMode : Bool
  charsets : TerminalCharsets
deriving DecidableEq, Repr

/-- Terminal cursor state. -/
structure Cursor where
  row : Nat
  col : Nat
  style : CellStyle
  extended : Option ExtendedAttrs
  shape : CursorShape
  visible : Bool
  autoWrapPending : Bool
  saved : Option SavedCursor
deriving DecidableEq, Repr

namespace Cursor

def new : Cursor := ⟨0, 0, .default, none, .block, true, false, none⟩

/-- Save cursor state. -/
def save (cursor : Cursor) (originMode : Bool) (charsets : TerminalCharsets) : Cursor :=
  { cursor with
    saved := some ⟨cursor.row, cursor.col, cursor.style, cursor.extended, cursor.autoWrapPending,
      originMode, charsets⟩ }

/-- Restore cursor state; the saved origin mode and charsets come with the cursor. -/
def restore (cursor : Cursor) : Cursor × Option (Bool × TerminalCharsets) :=
  match cursor.saved with
  | none => (cursor, none)
  | some saved =>
    ({ cursor with
        row := saved.row
        col := saved.col
        style := saved.style
        extended := saved.extended
        autoWrapPending := saved.autoWrapPending },
      some (saved.originMode, saved.charsets))

/-- Clamp cursor position to the grid bounds. -/
def clamp (cursor : Cursor) (rows cols : Nat) : Cursor :=
  { cursor with
    row := min cursor.row (rows - 1)
    col := min cursor.col (cols - 1)
    autoWrapPending := false
    saved := cursor.saved.map fun saved =>
      { saved with
        row := min saved.row (rows - 1)
        col := min saved.col (cols - 1)
        autoWrapPending := false } }

end Cursor

/-- Mouse tracking mode. -/
inductive MouseMode where
  | none
  | normal
  | buttonEvent
  | anyEvent
deriving DecidableEq, Repr

/-- Terminal mode flags. -/
structure TerminalModes where
  autoWrap : Bool := true
  applicationCursorKeys : Bool := false
  applicationKeypad : Bool := false
  originMode : Bool := false
  cursorVisible : Bool := true
  bracketedPaste : Bool := false
  focusEvents : Bool := false
  mouseTracking : MouseMode := .none
  sgrMouse : Bool := false
  utf8Mouse : Bool := false
  urxvtMouse : Bool := false
  pixelMouse : Bool := false
  alternateScroll : Bool := true
  synchronizedOutput : Bool := false
  alternateScreen : Bool := false
  insertMode : Bool := false
  newlineMode : Bool := false
deriving DecidableEq, Repr

/-- Scroll region, both margins inclusive. -/
structure ScrollRegion where
  top : Nat
  bottom : Nat
deriving DecidableEq, Repr

/-- A device control string in progress. -/
structure DcsState where
  intermediates : List UInt8
  action : Char
  payload : List UInt8
  overflowed : Bool
deriving DecidableEq, Repr

/-- The preceding character in the data stream: its base scalar, and those that joined it. -/
structure LastGraphic where
  ch : Char
  rest : List Char
deriving DecidableEq, Repr

def LastGraphic.scalars (last : LastGraphic) : List Char := last.ch :: last.rest

def LastGraphic.scalarCount (last : LastGraphic) : Nat := 1 + last.rest.length

/-- Maximum bytes retained for one device control string. -/
def maxDcsPayloadBytes : Nat := 4096

/-- Maximum replies produced from a single batch. -/
def maxResponsesPerBatch : Nat := 512

/-- Size of the buffer for operating system commands. -/
def maxOscPayloadBytes : Nat := 4096

/-- Maximum characters retained for a window title. -/
def maxTitleChars : Nat := 256

/-- Parameters an operating system command is cut to. -/
def vteMaxOscParams : Nat := 16

/-- The state a control sequence reads and writes. Replies are ASCII. -/
structure Screen where
  grid : Grid
  cursor : Cursor
  modes : TerminalModes
  scrollRegion : ScrollRegion
  title : Option String
  defaultColors : TerminalDefaultColors
  dcsState : Option DcsState
  activeGraphemeCell : Option (Nat × Nat)
  lastGraphic : Option LastGraphic
  charsets : TerminalCharsets
  tabStops : TabStops
  responses : List String
  paletteOverridden : Bool
deriving DecidableEq, Repr

/-- Components of the presented frame borrowed for writing so far. -/
structure Touched where
  grid : Bool
  cursor : Bool
  title : Bool
  colors : Bool
deriving DecidableEq, Repr

def Touched.nothing : Touched := ⟨false, false, false, false⟩

/-- The handler translates escape sequences into grid operations. -/
structure Handler extends Screen where
  touched : Touched
deriving DecidableEq, Repr

namespace Handler

def setGrid (h : Handler) (grid : Grid) : Handler :=
  { h with grid, touched := { h.touched with grid := true } }

def setCursor (h : Handler) (cursor : Cursor) : Handler :=
  { h with cursor, touched := { h.touched with cursor := true } }

def setTitle (h : Handler) (title : Option String) : Handler :=
  { h with title, touched := { h.touched with title := true } }

def setColors (h : Handler) (defaultColors : TerminalDefaultColors) : Handler :=
  { h with defaultColors, touched := { h.touched with colors := true } }

/-- Run an operation on the live grid, borrowed for writing. -/
def onGrid (h : Handler) (f : Grid → Checked Grid) : Checked Handler := do
  let grid ← f h.grid
  pure (h.setGrid grid)

def clearActiveGraphemeCell (h : Handler) : Handler := { h with activeGraphemeCell := none }

def setActiveGraphemeCell (h : Handler) (row col : Nat) : Handler :=
  { h with activeGraphemeCell := some (row, col) }

/-- Start a new remembered character. -/
def rememberGraphicScalar (h : Handler) (ch : Char) : Handler :=
  { h with lastGraphic := some ⟨ch, []⟩ }

/-- Extend the remembered character with a scalar that joined its cell. -/
def extendRememberedGraphic (h : Handler) (joined : Nat × Nat) (ch : Char) : Handler :=
  if h.activeGraphemeCell ≠ some joined then h
  else
    { h with
      lastGraphic := h.lastGraphic.map fun record => { record with rest := record.rest ++ [ch] } }

def gridLastRow (h : Handler) : Nat := h.grid.rows - 1

def gridLastCol (h : Handler) : Nat := h.grid.cols - 1

def clampCursorToGrid (h : Handler) : Handler :=
  let row := min h.cursor.row h.gridLastRow
  let col := min h.cursor.col h.gridLastCol
  let pending := h.cursor.autoWrapPending && (row == h.cursor.row && col == h.cursor.col)
  h.setCursor { h.cursor with row, col, autoWrapPending := pending }

def saveCursorState (h : Handler) : Handler :=
  h.setCursor (h.cursor.save h.modes.originMode h.charsets)

def restoreCursorState (h : Handler) : Handler :=
  let (cursor, saved) := h.cursor.restore
  let h := h.setCursor cursor
  match saved with
  | none => h
  | some (origin, charsets) =>
    clampCursorToGrid { h with modes := { h.modes with originMode := origin }, charsets }

def originTop (h : Handler) : Nat :=
  if h.modes.originMode then min h.scrollRegion.top h.gridLastRow else 0

def originBottom (h : Handler) : Nat :=
  if h.modes.originMode then min h.scrollRegion.bottom h.gridLastRow else h.gridLastRow

def addressedRow (h : Handler) (param default : Nat) : Nat :=
  let rowOffset := (if param = 0 then default else param) - 1
  let top := h.originTop
  let bottom := max h.originBottom top
  min (min (top + rowOffset) bottom) h.gridLastRow

def upwardVerticalTop (h : Handler) : Nat :=
  let top := min h.scrollRegion.top h.gridLastRow
  let bottom := min h.scrollRegion.bottom h.gridLastRow
  if top ≤ bottom ∧ top ≤ h.cursor.row then top else 0

def downwardVerticalBottom (h : Handler) : Nat :=
  let top := min h.scrollRegion.top h.gridLastRow
  let bottom := min h.scrollRegion.bottom h.gridLastRow
  if top ≤ bottom ∧ h.cursor.row ≤ bottom then bottom else h.gridLastRow

/-- Rows in the active scroll region. -/
def scrollRegionHeight (h : Handler) : Nat := h.scrollRegion.bottom - h.scrollRegion.top + 1

/-- Rows from the cursor to the bottom of the scroll region, if it is inside. -/
def linesFromCursorToRegionBottom (h : Handler) : Option Nat :=
  if h.cursor.row < h.scrollRegion.top ∨ h.scrollRegion.bottom < h.cursor.row then none
  else some (h.scrollRegion.bottom - h.cursor.row + 1)

def moveCursorUp (h : Handler) (n : Nat) : Handler :=
  h.setCursor { h.cursor with
    row := max (h.cursor.row - n) h.upwardVerticalTop
    autoWrapPending := false }

def moveCursorDown (h : Handler) (n : Nat) : Handler :=
  h.setCursor { h.cursor with
    row := min (h.cursor.row + n) h.downwardVerticalBottom
    autoWrapPending := false }

/-- Put the cursor in another column. -/
def setCol (h : Handler) (col : Nat) : Handler :=
  h.setCursor { h.cursor with col, autoWrapPending := false }

def homeCursorToOrigin (h : Handler) : Handler :=
  h.setCursor { h.cursor with row := h.originTop, col := 0, autoWrapPending := false }

/-- Fill the page with the alignment pattern, and reset the margins before the cursor is
homed. -/
def screenAlignmentPattern (h : Handler) : Checked Handler := do
  let h ← h.onGrid Grid.fillAlignmentPattern
  let h := { h with scrollRegion := ⟨0, h.grid.rows - 1⟩ }
  pure (h.setCursor { h.cursor with row := 0, col := 0, autoWrapPending := false })

def carriageReturn (h : Handler) : Handler := h.setCol 0

/-- Move the cursor down, scrolling at the bottom of the scroll region. -/
def linefeed (h : Handler) : Checked Handler := do
  let h ← (if h.cursor.row = h.scrollRegion.bottom then
      h.onGrid fun g => g.scrollUp h.scrollRegion.top h.scrollRegion.bottom
    else do
      let last ← sub h.grid.rows 1
      pure (if h.cursor.row < last then h.setCursor { h.cursor with row := h.cursor.row + 1 }
        else h))
  let h := if h.modes.newlineMode then h.setCursor { h.cursor with col := 0 } else h
  pure (h.setCursor { h.cursor with autoWrapPending := false })

/-- Move the cursor up, scrolling down at the top of the scroll region. -/
def reverseIndex (h : Handler) : Checked Handler := do
  let h ← (if h.cursor.row = h.scrollRegion.top then
      h.onGrid fun g => g.scrollDown h.scrollRegion.top h.scrollRegion.bottom
    else if 0 < h.cursor.row then do
      let row ← sub h.cursor.row 1
      pure (h.setCursor { h.cursor with row })
    else pure h)
  pure (h.setCursor { h.cursor with autoWrapPending := false })

def nextTabCol (h : Handler) (count : Nat) : Checked Nat := h.tabStops.nextFrom h.cursor.col count

def prevTabCol (h : Handler) (count : Nat) : Checked Nat := h.tabStops.prevFrom h.cursor.col count

def activeCharset (h : Handler) : TerminalCharset :=
  match h.charsets.active with
  | .g0 => h.charsets.g0
  | .g1 => h.charsets.g1

def translatePrintable (h : Handler) (ch : Char) : Char :=
  if h.activeCharset ≠ .decSpecialGraphics then ch else (decSpecialGraphics ch).getD ch

def designateCharset (h : Handler) (slot : CharsetSlot) (final : UInt8) : Handler :=
  let charset := if final = '0'.toUInt8 then TerminalCharset.decSpecialGraphics else .ascii
  match slot with
  | .g0 => { h with charsets := { h.charsets with g0 := charset } }
  | .g1 => { h with charsets := { h.charsets with g1 := charset } }

/-- Queue a reply, bounded per batch. -/
def pushResponse (h : Handler) (response : String) : Handler :=
  if maxResponsesPerBatch ≤ h.responses.length then h
  else { h with responses := h.responses ++ [response] }

end Handler

end Shux.Vt
