/-
# Dispatching control sequences

A sequence is first told apart by its final byte and its intermediates, then carried out.
Here is everything that stays on the screen it arrives at; switching screens, holding the
presentation and the full reset are the terminal's.
-/

import Shux.Vt.Print
import Shux.Vt.Reply

namespace Shux.Vt

open Checked

inductive Control where
  | backspace
  | tab
  | linefeed
  | carriageReturn
  | shift (slot : CharsetSlot)
deriving DecidableEq, Repr

def Control.decode (byte : UInt8) : Option Control :=
  match byte.toNat with
  | 0x08 => some .backspace
  | 0x09 => some .tab
  | 0x0a => some .linefeed
  | 0x0b => some .linefeed
  | 0x0c => some .linefeed
  | 0x0d => some .carriageReturn
  | 0x0e => some (.shift .g1)
  | 0x0f => some (.shift .g0)
  | _ => none

/-- A control sequence, by its final byte and intermediates. -/
inductive Csi where
  | cursorUp
  | cursorDown
  | cursorForward
  | cursorBackward
  | nextLine
  | previousLine
  | columnAbsolute
  | forwardTab
  | backwardTab
  | cursorPosition
  | eraseDisplay
  | eraseLine
  | insertLines
  | deleteLines
  | scrollUp
  | scrollDown
  | insertChars
  | deleteChars
  | eraseChars
  | repeatChar
  | rowAbsolute
  | tabClear
  | saveCursor
  | restoreCursor
  | rendition
  | deviceAttributes
  | secondaryAttributes
  | statusReport
  | privateStatusReport
  | scrollRegion
  | setMode (enable : Bool)
  | setPrivateMode (enable : Bool)
  | cursorStyle
  | version
  | requestMode (isPrivate : Bool)
deriving DecidableEq, Repr

/-- Sequences without intermediates. -/
def Csi.decodePlain (action : Char) : Option Csi :=
  match action with
  | 'A' => some .cursorUp
  | 'B' => some .cursorDown
  | 'C' => some .cursorForward
  | 'a' => some .cursorForward
  | 'D' => some .cursorBackward
  | 'E' => some .nextLine
  | 'e' => some .cursorDown
  | 'F' => some .previousLine
  | 'G' => some .columnAbsolute
  | '\x60' => some .columnAbsolute
  | 'I' => some .forwardTab
  | 'Z' => some .backwardTab
  | 'H' => some .cursorPosition
  | 'f' => some .cursorPosition
  | 'J' => some .eraseDisplay
  | 'K' => some .eraseLine
  | 'L' => some .insertLines
  | 'M' => some .deleteLines
  | 'S' => some .scrollUp
  | 'T' => some .scrollDown
  | '@' => some .insertChars
  | 'P' => some .deleteChars
  | 'X' => some .eraseChars
  | 'b' => some .repeatChar
  | 'd' => some .rowAbsolute
  | 'g' => some .tabClear
  | 's' => some .saveCursor
  | 'u' => some .restoreCursor
  | 'm' => some .rendition
  | 'c' => some .deviceAttributes
  | 'n' => some .statusReport
  | 'r' => some .scrollRegion
  | 'h' => some (.setMode true)
  | 'l' => some (.setMode false)
  | _ => none

def Csi.decode (action : Char) (intermediates : List UInt8) : Option Csi :=
  if intermediates = [] then decodePlain action
  else if intermediates = asciiBytes ">" then
    match action with
    | 'c' => some .secondaryAttributes
    | 'q' => some .version
    | _ => none
  else if intermediates = asciiBytes "?" then
    match action with
    | 'n' => some .privateStatusReport
    | 'h' => some (.setPrivateMode true)
    | 'l' => some (.setPrivateMode false)
    | _ => none
  else if intermediates = asciiBytes " " then
    match action with
    | 'q' => some .cursorStyle
    | _ => none
  else if intermediates = asciiBytes "$" then
    match action with
    | 'p' => some (.requestMode false)
    | _ => none
  else if intermediates = asciiBytes "?$" then
    match action with
    | 'p' => some (.requestMode true)
    | _ => none
  else none

/-- Sequences that do not end the cluster under construction. -/
def continuesTheCluster (action : Char) (intermediates : List UInt8) : Bool :=
  intermediates.isEmpty && (action == 'm' || action == 'b')

/-- Groups of sub-parameters, and the flat list of all of them. -/
abbrev Params := List (List Nat)

/-- A parameter, or its default when it is absent or zero. -/
def Params.at (params : Params) (i default : Nat) : Nat :=
  match params.flatten[i]? with
  | none => default
  | some value => if value = 0 then default else value

namespace Handler

/-- Erase in a row of the grid, with the pen's background. -/
def eraseInRow (h : Handler) (col count : Nat) : Checked Handler :=
  h.onGrid fun g => g.eraseChars h.cursor.row col count h.cursor.style.bg

/-- Erase from the cursor to the right edge. -/
def eraseToRight (h : Handler) : Checked Handler := do
  let count ← sub h.grid.cols h.cursor.col
  h.eraseInRow h.cursor.col count

/-- Erase from the left edge to the cursor. -/
def eraseToLeft (h : Handler) : Checked Handler := h.eraseInRow 0 (h.cursor.col + 1)

def eraseInDisplay (h : Handler) (param : Nat) : Checked Handler := do
  let bg := h.cursor.style.bg
  match param with
  | 0 => do
    let h ← h.eraseToRight
    if h.cursor.row + 1 < h.grid.rows then h.onGrid fun g => g.clearBelow (h.cursor.row + 1) bg
    else pure h
  | 1 => do
    let h ← (if 0 < h.cursor.row then do
        let row ← sub h.cursor.row 1
        h.onGrid fun g => g.clearAbove row bg
      else pure h)
    h.eraseToLeft
  | 2 => h.onGrid fun g => g.clearVisible bg
  | 3 => do
    let h ← h.onGrid fun g => g.clearVisible bg
    h.onGrid fun g => pure g.clearScrollback
  | _ => pure h

def eraseInLine (h : Handler) (param : Nat) : Checked Handler :=
  match param with
  | 0 => h.eraseToRight
  | 1 => h.eraseToLeft
  | 2 => h.eraseInRow 0 h.grid.cols
  | _ => pure h

/-- Scroll the lines from the cursor on, if it is inside the scroll region. -/
def scrollFromCursor (h : Handler) (n : Nat) (scroll : Grid → Nat → Nat → Nat → Checked Grid) :
    Checked Handler :=
  match h.linesFromCursorToRegionBottom with
  | none => pure h
  | some limit => h.onGrid fun g => scroll g h.cursor.row h.scrollRegion.bottom (min n limit)

/-- Scroll the whole scroll region. -/
def scrollInRegion (h : Handler) (n : Nat) (scroll : Grid → Nat → Nat → Nat → Checked Grid) :
    Checked Handler :=
  h.onGrid fun g => scroll g h.scrollRegion.top h.scrollRegion.bottom (min n h.scrollRegionHeight)

def tabClear (h : Handler) (param : Nat) : Handler :=
  match param with
  | 0 => { h with tabStops := h.tabStops.clearCurrent h.cursor.col }
  | 3 => { h with tabStops := h.tabStops.clearAll }
  | _ => h

/-- Write the pen, if anything wrote it. -/
def setPen (h : Handler) (pen : Pen) (wrote : Bool) : Handler :=
  if wrote then h.setCursor { h.cursor with style := pen.style, extended := pen.extended } else h

def pen (h : Handler) : Pen := ⟨h.cursor.style, h.cursor.extended⟩

def selectRendition (h : Handler) (params : Params) : Handler :=
  let params := if params.isEmpty then [[]] else params
  let (pen, wrote) := sgrGroups params.length h.pen false params
  h.setPen pen wrote

/-- Answer when there is no parameter, or one that is zero. -/
def answerPlain (h : Handler) (params : Params) (response : String) : Handler :=
  if params.flatten = [] ∨ params.flatten = [0] then h.pushResponse response else h

def statusReport (h : Handler) (param : Nat) : Handler :=
  match param with
  | 5 => h.pushResponse "\x1b[0n"
  | 6 => h.reportCursorPosition false
  | _ => h

def privateStatusReport (h : Handler) (param : Nat) : Handler :=
  match param with
  | 6 => h.reportCursorPosition true
  | 15 => h.pushResponse "\x1b[?10n"
  | 25 => h.pushResponse "\x1b[?20n"
  | 26 => h.pushResponse "\x1b[?27;1;0;0n"
  | 53 => h.pushResponse "\x1b[?50n"
  | _ => h

/-- Set the scroll region to rows the grid has. The default of the second parameter is the
number of rows in sixteen bits. -/
def setScrollRegion (h : Handler) (params : Params) : Handler :=
  match checkedPred h.grid.rows with
  | none => h
  | some lastRow =>
    let top := params.at 0 1 - 1
    let bottom := min (params.at 1 (h.grid.rows % 2 ^ 16) - 1) lastRow
    if top < bottom then homeCursorToOrigin { h with scrollRegion := ⟨top, bottom⟩ } else h

def setStandardMode (enable : Bool) (h : Handler) (param : Nat) : Handler :=
  match param with
  | 4 => { h with modes := { h.modes with insertMode := enable } }
  | 20 => { h with modes := { h.modes with newlineMode := enable } }
  | _ => h

def cursorShapeOf (param : Nat) : CursorShape :=
  match param with
  | 3 => .underline
  | 4 => .underline
  | 5 => .bar
  | 6 => .bar
  | _ => .block

/-- Carry out a control sequence that stays on its screen. -/
def csi [Crates] (h : Handler) (op : Csi) (params : Params) : Checked Handler :=
  let n := params.at 0 1
  match op with
  | .cursorUp => pure (h.moveCursorUp n)
  | .cursorDown => pure (h.moveCursorDown n)
  | .cursorForward => do
    let last ← sub h.grid.cols 1
    pure (h.setCol (min (h.cursor.col + n) last))
  | .cursorBackward => pure (h.setCol (h.cursor.col - n))
  | .nextLine =>
    let h := h.moveCursorDown n
    pure (h.setCursor { h.cursor with col := 0 })
  | .previousLine =>
    let h := h.moveCursorUp n
    pure (h.setCursor { h.cursor with col := 0 })
  | .columnAbsolute => do
    let last ← sub h.grid.cols 1
    pure (h.setCol (min (n - 1) last))
  | .forwardTab => do
    let col ← h.nextTabCol n
    pure (h.setCol col)
  | .backwardTab => do
    let col ← h.prevTabCol n
    pure (h.setCol col)
  | .cursorPosition => do
    let row := h.addressedRow n 1
    let last ← sub h.grid.cols 1
    pure (h.setCursor { h.cursor with
      row
      col := min (params.at 1 1 - 1) last
      autoWrapPending := false })
  | .eraseDisplay => h.eraseInDisplay (params.at 0 0)
  | .eraseLine => h.eraseInLine (params.at 0 0)
  | .insertLines => h.scrollFromCursor n Grid.scrollDownN
  | .deleteLines => h.scrollFromCursor n Grid.scrollUpN
  | .scrollUp => h.scrollInRegion n Grid.scrollUpN
  | .scrollDown => h.scrollInRegion n Grid.scrollDownN
  | .insertChars => h.onGrid fun g => g.insertChars h.cursor.row h.cursor.col n
  | .deleteChars => h.onGrid fun g => g.deleteChars h.cursor.row h.cursor.col n
  | .eraseChars => h.eraseInRow h.cursor.col n
  | .repeatChar => h.repeatPrecedingChar n
  | .rowAbsolute =>
    pure (h.setCursor { h.cursor with row := h.addressedRow n 1, autoWrapPending := false })
  | .tabClear => pure (h.tabClear (params.at 0 0))
  | .saveCursor => pure (if params.flatten.all (· == 0) then h.saveCursorState else h)
  | .restoreCursor => pure (if params.flatten.all (· == 0) then h.restoreCursorState else h)
  | .rendition => pure (h.selectRendition params)
  | .deviceAttributes => pure (h.answerPlain params "\x1b[?62;1;2;6;9;15;22c")
  | .secondaryAttributes => pure (h.answerPlain params "\x1b[>0;95;0c")
  | .statusReport => pure (params.flatten.foldl statusReport h)
  | .privateStatusReport => pure (params.flatten.foldl privateStatusReport h)
  | .scrollRegion => pure (h.setScrollRegion params)
  | .setMode enable => pure (params.flatten.foldl (setStandardMode enable) h)
  | .setPrivateMode _ => pure h
  | .cursorStyle => pure (h.setCursor { h.cursor with shape := cursorShapeOf n })
  | .version => pure (h.answerPlain params "\x1bP>|shux 0.57.1\x1b\\")
  | .requestMode isPrivate =>
    pure (params.flatten.foldl (fun h mode => h.reportMode mode isPrivate) h)

def control (h : Handler) (op : Control) : Checked Handler :=
  match op with
  | .backspace =>
    if 0 < h.cursor.col then do
      let col ← sub h.cursor.col 1
      pure (h.setCol col)
    else pure h
  | .tab => do
    let col ← h.nextTabCol 1
    pure (h.setCol col)
  | .linefeed => h.linefeed
  | .carriageReturn => pure h.carriageReturn
  | .shift slot => pure { h with charsets := { h.charsets with active := slot } }

def execute (h : Handler) (byte : UInt8) : Checked Handler :=
  let h := h.clearActiveGraphemeCell
  match Control.decode byte with
  | some op => h.control op
  | none => pure h

/-- Print a scalar. A C1 control that arrives as one is executed. -/
def print [Crates] (h : Handler) (ch : Char) : Checked Handler :=
  if 0x80 ≤ ch.toNat ∧ ch.toNat ≤ 0x9f then h.execute (.ofNat ch.toNat)
  else h.writeChar (h.translatePrintable ch)

end Handler

/-- An escape sequence, by its final byte and intermediates. -/
inductive Esc where
  | saveCursor
  | restoreCursor
  | alignmentPattern
  | designate (slot : CharsetSlot) (final : UInt8)
  | keypad (application : Bool)
  | tabSet
  | reverseIndex
  | index
  | nextLine
  | fullReset
deriving DecidableEq, Repr

def Esc.decodePlain (byte : UInt8) : Option Esc :=
  match Char.ofNat byte.toNat with
  | '7' => some .saveCursor
  | '8' => some .restoreCursor
  | '=' => some (.keypad true)
  | '>' => some (.keypad false)
  | 'H' => some .tabSet
  | 'M' => some .reverseIndex
  | 'D' => some .index
  | 'E' => some .nextLine
  | 'c' => some .fullReset
  | _ => none

def Esc.decode (byte : UInt8) (intermediates : List UInt8) : Option Esc :=
  if intermediates = [] then decodePlain byte
  else if byte = '8'.toUInt8 ∧ intermediates = asciiBytes "#" then some .alignmentPattern
  else if intermediates = asciiBytes "(" then some (.designate .g0 byte)
  else if intermediates = asciiBytes ")" then some (.designate .g1 byte)
  else none

namespace Handler

/-- Carry out an escape sequence that stays on its screen. -/
def esc (h : Handler) (op : Esc) : Checked Handler :=
  match op with
  | .saveCursor => pure h.saveCursorState
  | .restoreCursor => pure h.restoreCursorState
  | .alignmentPattern => h.screenAlignmentPattern
  | .designate slot final => pure (h.designateCharset slot final)
  | .keypad application =>
    pure { h with modes := { h.modes with applicationKeypad := application } }
  | .tabSet => pure { h with tabStops := h.tabStops.set h.cursor.col }
  | .reverseIndex => h.reverseIndex
  | .index => h.linefeed
  | .nextLine => h.carriageReturn.linefeed
  | .fullReset => pure h

/-- Mark the viewport for repaint, through the presented grid. -/
def repaint (h : Handler) : Handler := h.setGrid h.grid.markAllDirty

/-- Set or query one of the default colours. -/
def dynamicColor (h : Handler) (selector : String) (param : List UInt8) (bell : Bool)
    (shown : Rgb) (current : Option Rgb) (set : Rgb → TerminalDefaultColors) : Handler :=
  if param = asciiBytes "?" then
    h.pushResponse ("\x1b]" ++ selector ++ ";" ++ formatOscRgb shown ++ oscTerminator bell)
  else
    match parseOscColor param with
    | none => h
    | some color => if current = some color then h else (h.setColors (set color)).repaint

/-- Reset one of the default colours; the frame is repainted if it was set. -/
def resetColor (h : Handler) (current : Option Rgb) (colors : TerminalDefaultColors) : Handler :=
  let h := h.setColors colors
  if current.isSome then h.repaint else h

/-- The parameters of a palette command in pairs; one left over is dropped. -/
def oscPairs : List (List UInt8) → List (List UInt8 × List UInt8)
  | index :: color :: rest => (index, color) :: oscPairs rest
  | _ => []

/-- Answer for a palette entry, or note that one was overridden. -/
def paletteEntry (bell : Bool) (h : Handler) (entry : List UInt8 × List UInt8) : Handler :=
  match parseBounded ((utf8Text entry.1).getD []) 10 256 with
  | none => h
  | some index =>
    if entry.2 = asciiBytes "?" then
      h.pushResponse ("\x1b]4;" ++ toString index ++ ";" ++ formatOscRgb (xterm256Palette index) ++
        oscTerminator bell)
    else if (parseOscColor entry.2).isSome then repaint { h with paletteOverridden := true }
    else h

def setCursorHyperlink (h : Handler) (hyperlink : Option String) : Handler :=
  h.setPen (h.pen.setHyperlink hyperlink) true

/-- Set or clear the hyperlink of the cells to come. -/
def oscHyperlink (h : Handler) (params : List (List UInt8)) : Handler :=
  if osc8PayloadWasTruncated params then h
  else if params.length < 3 then h
  else
    let uri := joinOscParts (params.drop 2)
    if uri.isEmpty then h.setCursorHyperlink none
    else
      match utf8Text uri with
      | none => h
      | some uri => if uri.any isControl then h else h.setCursorHyperlink (some (String.ofList uri))

/-- Set the window title. -/
def oscTitle (h : Handler) (title : Option (List UInt8)) : Handler :=
  match title.bind utf8Text with
  | none => h
  | some title => h.setTitle (some (clampTitle title))

def oscDispatch (h : Handler) (params : List (List UInt8)) (bell : Bool) : Handler :=
  match params with
  | [] => h
  | selector :: rest =>
    let colors := h.defaultColors
    let gray : Rgb := ⟨238, 238, 238⟩
    let black : Rgb := ⟨0, 0, 0⟩
    if selector = asciiBytes "0" ∨ selector = asciiBytes "2" then h.oscTitle rest[0]?
    else if selector = asciiBytes "10" then
      match rest[0]? with
      | none => h
      | some param => h.dynamicColor "10" param bell (colors.fg.getD gray) colors.fg fun color =>
        { colors with fg := some color }
    else if selector = asciiBytes "11" then
      match rest[0]? with
      | none => h
      | some param => h.dynamicColor "11" param bell (colors.bg.getD black) colors.bg fun color =>
        { colors with bg := some color }
    else if selector = asciiBytes "12" then
      match rest[0]? with
      | none => h
      | some param =>
        h.dynamicColor "12" param bell ((colors.cursor.or colors.fg).getD gray) colors.cursor
          fun color => { colors with cursor := some color }
    else if selector = asciiBytes "110" then h.resetColor colors.fg { colors with fg := none }
    else if selector = asciiBytes "111" then h.resetColor colors.bg { colors with bg := none }
    else if selector = asciiBytes "112" then
      h.resetColor colors.cursor { colors with cursor := none }
    else if selector = asciiBytes "4" then (oscPairs rest).foldl (paletteEntry bell) h
    else if selector = asciiBytes "8" then h.oscHyperlink params
    else h

def hook (h : Handler) (intermediates : List UInt8) (ignore : Bool) (action : Char) : Handler :=
  if ignore then { h with dcsState := none }
  else { h with dcsState := some ⟨intermediates, action, [], false⟩ }

def putDcs (h : Handler) (byte : UInt8) : Handler :=
  match h.dcsState with
  | none => h
  | some dcs =>
    if dcs.overflowed then h
    else if maxDcsPayloadBytes ≤ dcs.payload.length then
      { h with dcsState := some { dcs with overflowed := true, payload := [] } }
    else { h with dcsState := some { dcs with payload := dcs.payload ++ [byte] } }

def unhook (h : Handler) : Handler :=
  match h.dcsState with
  | none => h
  | some dcs =>
    let h := { h with dcsState := none }
    if dcs.overflowed then h
    else if dcs.intermediates = asciiBytes "+" ∧ dcs.action = 'q' then
      h.pushResponse ((xtgettcapResponse dcs.payload).getD "\x1bP0+r\x1b\\")
    else if dcs.intermediates = asciiBytes "$" ∧ dcs.action = 'q' then
      h.pushResponse ((decrqssResponse dcs.payload h.toScreen).getD "\x1bP0$r\x1b\\")
    else h

end Handler

end Shux.Vt
