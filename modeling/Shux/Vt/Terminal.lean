/-
# The virtual terminal

A terminal owns two screens, one of them parked, the images of both, and the frame it
presents. While synchronized output holds the presentation, each component of that frame
is frozen at its first write: an operation runs on the live screen, and the components it
touched are snapshotted as they stood before it, unless they are frozen already. The
revision counter follows the presented frame batch by batch.
-/

import Shux.Vt.Dispatch
import Shux.Vt.Reflow

namespace Shux.Vt

open Checked

/-- The viewport as it stood when it was frozen, and the history behind it. -/
structure FrozenScreen where
  grid : Grid
  historyLen : Nat
  evicted : Nat
deriving DecidableEq, Repr

def FrozenScreen.snapshot (g : Grid) : FrozenScreen :=
  ⟨g.clonePresentedViewport, g.scrollbackLen, g.evicted⟩

/-- Everything the graphics path writes. -/
structure GraphicsSink where
  refusals : Nat
  assembler : Assembler
  transferOnAlt : Bool
  primaryStore : ImageStore
  altStore : ImageStore
deriving DecidableEq, Repr

def GraphicsSink.default : GraphicsSink := ⟨0, .default, false, .empty, .empty⟩

def GraphicsSink.refuse (sink : GraphicsSink) : GraphicsSink :=
  { sink with refusals := sink.refusals + 1 }

/-- The store of a screen. -/
def GraphicsSink.store (sink : GraphicsSink) (alt : Bool) : ImageStore :=
  if alt then sink.altStore else sink.primaryStore

def GraphicsSink.setStore (sink : GraphicsSink) (alt : Bool) (store : ImageStore) : GraphicsSink :=
  if alt then { sink with altStore := store } else { sink with primaryStore := store }

/-- Pane output one synchronized-output window may absorb. -/
def syncUpdateMaxBytes : Nat := 2 * 1024 * 1024

/-- Nanoseconds a synchronized-output window may stay open. -/
def syncUpdateTimeoutNs : Nat := 150 * 1000000

/-- Per-pane virtual terminal. -/
structure Terminal extends Screen where
  altGrid : Option Grid
  altSpare : Option Grid
  altCursor : Option Cursor
  graphics : GraphicsSink
  syncArmed : Bool
  frozenGrid : Option FrozenScreen
  frozenCursor : Option Cursor
  frozenColors : Option TerminalDefaultColors
  frozenTitle : Option (Option String)
  frozenAlt : Option Bool
  eagerSyncFreeze : Bool
  syncOpenedNs : Nat
  syncBytes : Nat
  rows : Nat
  cols : Nat
  contentRevision : Nat
  syncHiddenClassA : Bool
  reuseRetiredGrids : Bool
deriving DecidableEq, Repr

/-- The alternate screen has no scrollback. -/
def altGridConfig : GridConfig := { GridConfig.default with maxScrollback := 0 }

namespace Terminal

/-- Create a terminal. A size of zero becomes the smallest real one. -/
def withConfig (rows cols : Nat) (config : GridConfig) : Terminal where
  grid := .new (max rows 1) (max cols 1) config
  cursor := .new
  modes := {}
  scrollRegion := ⟨0, max rows 1 - 1⟩
  title := none
  defaultColors := .default
  dcsState := none
  activeGraphemeCell := none
  lastGraphic := none
  charsets := .default
  tabStops := .new (max cols 1)
  responses := []
  paletteOverridden := false
  altGrid := none
  altSpare := none
  altCursor := none
  graphics := .default
  syncArmed := false
  frozenGrid := none
  frozenCursor := none
  frozenColors := none
  frozenTitle := none
  frozenAlt := none
  eagerSyncFreeze := false
  syncOpenedNs := 0
  syncBytes := 0
  rows := max rows 1
  cols := max cols 1
  contentRevision := 1
  syncHiddenClassA := false
  reuseRetiredGrids := true

/-- Fill a slot of the presented frame, if it is empty and the component was touched. -/
def freezeSlot {α : Type} (touched : Bool) (slot : Option α) (live : α) : Option α :=
  if touched && slot.isNone then some live else slot

/-- Snapshot the touched components that are not frozen yet, while synchronized output is
armed. -/
def freeze (t : Terminal) (touched : Touched) : Terminal :=
  if t.syncArmed then
    { t with
      frozenGrid := freezeSlot touched.grid t.frozenGrid (.snapshot t.grid)
      frozenCursor := freezeSlot touched.cursor t.frozenCursor t.cursor
      frozenTitle := freezeSlot touched.title t.frozenTitle t.title
      frozenColors := freezeSlot touched.colors t.frozenColors t.defaultColors }
  else t

/-- Freeze the alternate-screen flag. -/
def freezeAltFlag (t : Terminal) : Terminal :=
  if t.syncArmed then
    { t with frozenAlt := freezeSlot true t.frozenAlt t.modes.alternateScreen }
  else t

/-- Snapshot every component of the presented frame that is not frozen yet. -/
def freezeWholePresentation (t : Terminal) : Terminal :=
  (t.freeze ⟨true, true, true, true⟩).freezeAltFlag

/-- Take the screen an operation of the handler left, once what it touched is frozen. -/
def commit (t : Terminal) (h : Handler) : Terminal :=
  { t.freeze h.touched with toScreen := h.toScreen }

/-- Run an operation of the handler on the live screen. -/
def onScreen (t : Terminal) (f : Handler → Checked Handler) : Checked Terminal := do
  let h ← f ⟨t.toScreen, .nothing⟩
  pure (t.commit h)

/-- Drop the frozen frame, and disarm. -/
def releaseSyncPresentation (t : Terminal) : Terminal :=
  { t with
    syncArmed := false
    frozenGrid := none
    frozenCursor := none
    frozenTitle := none
    frozenColors := none
    frozenAlt := none }

/-- Change the live grid without freezing it. -/
def markAllDirty (t : Terminal) : Terminal := { t with grid := t.grid.markAllDirty }

def setSyncMode (t : Terminal) (on : Bool) : Terminal :=
  { t with modes := { t.modes with synchronizedOutput := on } }

/-- Show the live frame again. -/
def forceReleaseSync (t : Terminal) : Terminal :=
  markAllDirty { t.releaseSyncPresentation.setSyncMode false with
    syncOpenedNs := 0
    syncBytes := 0 }

def syncReleaseRevealsClassA (t : Terminal) : Bool :=
  t.syncHiddenClassA || t.frozenGrid.isSome || t.frozenCursor.isSome || t.frozenColors.isSome ||
    t.frozenAlt.isSome

/-- Advance the revision by one batch. -/
def recordClassABatch (t : Terminal) : Terminal :=
  { t with contentRevision := t.contentRevision + 1 }

def syncWindowExpired (t : Terminal) (now : Nat) : Bool :=
  if !t.syncArmed || t.syncOpenedNs == 0 then false
  else
    decide (syncUpdateMaxBytes ≤ t.syncBytes) ||
      decide (syncUpdateTimeoutNs ≤ now - t.syncOpenedNs)

/-- Release a window that has outlived its deadline; the flag says whether anything hidden
was revealed. -/
def releaseExpiredSync (t : Terminal) (now : Nat) : Terminal × Bool :=
  if t.syncWindowExpired now then
    let classA := t.syncReleaseRevealsClassA
    let revealed := classA || t.frozenTitle.isSome
    let t := { t.forceReleaseSync with syncHiddenClassA := false }
    (if classA then t.recordClassABatch else t, revealed)
  else (t, false)

def presentedGrid (t : Terminal) : Grid := (t.frozenGrid.map fun frozen => frozen.grid).getD t.grid

def presentedCursor (t : Terminal) : Cursor := t.frozenCursor.getD t.cursor

def presentedTitle (t : Terminal) : Option String := t.frozenTitle.getD t.title

def presentedColors (t : Terminal) : TerminalDefaultColors := t.frozenColors.getD t.defaultColors

def isAlternateScreen (t : Terminal) : Bool := t.frozenAlt.getD t.modes.alternateScreen

/-- The grid that holds the history of the presented frame. -/
def presentedHistoryGrid (t : Terminal) : Grid :=
  if t.frozenAlt.any fun alt => alt != t.modes.alternateScreen then t.altGrid.getD t.grid
  else t.grid

def presentedHistoryLen (t : Terminal) : Nat :=
  match t.frozenGrid with
  | none => t.grid.scrollbackLen
  | some frozen => frozen.historyLen - (t.presentedHistoryGrid.evicted - frozen.evicted)

/-- Lines the presented frame spans, history first. -/
def presentedTotalLines (t : Terminal) : Nat :=
  match t.frozenGrid with
  | none => t.grid.totalLines
  | some frozen => t.presentedHistoryLen + frozen.grid.totalLines

/-- One line of the presented frame, history first. -/
def presentedRow (t : Terminal) (abs : Nat) : Option Row :=
  match t.frozenGrid with
  | none => t.grid.row abs
  | some frozen =>
    if abs < t.presentedHistoryLen then t.presentedHistoryGrid.row abs
    else frozen.grid.row (abs - t.presentedHistoryLen)

/-- Consume the dirty regions of the presented viewport. -/
def takeDirtyRegions (t : Terminal) : Terminal × List DirtyRegion :=
  match t.frozenGrid with
  | some frozen =>
    let (grid, regions) := frozen.grid.takeDirtyRegions
    ({ t with frozenGrid := some { frozen with grid } }, regions)
  | none =>
    let (grid, regions) := t.grid.takeDirtyRegions
    ({ t with grid }, regions)

/-- Turn recycling of the retired grid off or on. -/
def setRetiredGridReuse (t : Terminal) (enabled : Bool) : Terminal :=
  { t with
    reuseRetiredGrids := enabled
    altSpare := if enabled then t.altSpare else none }

/-- Freeze the whole presentation when a window opens. -/
def setEagerSyncFreeze (t : Terminal) (enabled : Bool) : Terminal :=
  let t := { t with eagerSyncFreeze := enabled }
  if enabled && t.syncArmed then t.freezeWholePresentation else t

def clearScrollback (t : Terminal) : Terminal := { t with grid := t.grid.clearScrollback }

/-- The canvas of the alternate screen: the retired grid, blanked unless it is blank
already, or a new one. -/
def altCanvas (t : Terminal) : Grid :=
  match t.altSpare.filter fun _ => t.reuseRetiredGrids with
  | some spare =>
    if spare.isBlankCanvas t.grid.rows t.grid.cols altGridConfig then spare
    else spare.resetBlank t.grid.rows t.grid.cols altGridConfig
  | none => .new t.grid.rows t.grid.cols altGridConfig

def clearAltImages (t : Terminal) : Terminal :=
  { t with graphics := { t.graphics with altStore := t.graphics.altStore.clear } }

/-- Switch to the alternate screen. With `saveCursor` the cursor is parked and the new one
starts at home with the same save slot. -/
def swapEnter (t : Terminal) (saveCursor : Bool) : Terminal :=
  let t := t.clearAltImages
  let t := { t with
    grid := t.altCanvas.markAllDirty
    altGrid := some t.grid
    altSpare := none }
  if saveCursor then
    { t with cursor := { Cursor.new with saved := t.cursor.saved }, altCursor := some t.cursor }
  else { t with altCursor := none }

/-- Take the parked grid back, and retire the live one. -/
def unparkGrid (t : Terminal) : Terminal :=
  match t.altGrid with
  | none => t
  | some primary =>
    { t with
      grid := primary.markAllDirty
      altGrid := none
      altSpare := if t.reuseRetiredGrids then some t.grid else t.altSpare }

/-- Switch back to the primary screen. -/
def swapLeave (t : Terminal) (restoreCursor : Bool) : Terminal :=
  let t := t.clearAltImages.unparkGrid
  if restoreCursor then { t with cursor := t.altCursor.getD t.cursor, altCursor := none }
  else { t with altCursor := none }

/-- Set the alternate-screen flag, frozen first. -/
def setAlternateScreen (t : Terminal) (on : Bool) : Terminal :=
  let t := t.freezeAltFlag
  { t with modes := { t.modes with alternateScreen := on } }

/-- Grid and cursor are both borrowed for a swap. -/
def freezeForSwap (t : Terminal) : Terminal := t.freeze ⟨true, true, false, false⟩

/-- Start the alternate screen over: blank, with a new cursor that keeps the save slot. -/
def restartAlternate (h : Handler) : Checked Handler := do
  let saved := h.cursor.saved
  let h ← h.onGrid fun g => g.clearVisible h.cursor.style.bg
  pure (h.setCursor { Cursor.new with saved })

/-- Modes 47, 1047 and 1049 on; only the last one saves and parks the cursor. -/
def enableAlternate (t : Terminal) (parks : Bool) : Checked Terminal := do
  let t ← (if parks then t.onScreen fun h => pure h.saveCursorState else pure t)
  if t.modes.alternateScreen then
    if parks then t.onScreen restartAlternate else pure t
  else pure ((t.freezeForSwap.swapEnter parks).setAlternateScreen true)

/-- Modes 47, 1047 and 1049 off. -/
def disableAlternate (t : Terminal) (parks : Bool) : Checked Terminal :=
  let t := if t.modes.alternateScreen then
    (t.freezeForSwap.swapLeave parks).setAlternateScreen false else t
  if parks then t.onScreen fun h => pure h.restoreCursorState else pure t

/-- The direct switch to the alternate screen. -/
def enterAlternateScreen (t : Terminal) : Terminal :=
  let t := { t.freezeWholePresentation with activeGraphemeCell := none }
  if t.modes.alternateScreen then t
  else
    let t := t.swapEnter true
    { t with modes := { t.modes with alternateScreen := true } }

/-- The direct switch back to the primary screen. -/
def leaveAlternateScreen (t : Terminal) : Terminal :=
  let t := { t.freezeWholePresentation with activeGraphemeCell := none }
  if t.modes.alternateScreen then
    let t := t.swapLeave true
    { t with modes := { t.modes with alternateScreen := false } }
  else t

/-- Open or close a synchronized-output window. The repaint mark comes before arming, so
it takes no snapshot itself. -/
def setSynchronizedOutput (t : Terminal) (enable : Bool) : Terminal :=
  if enable then
    let t := if t.syncArmed then t
      else
        let t := { t.markAllDirty with syncArmed := true }
        if t.eagerSyncFreeze then t.freezeWholePresentation else t
    t.setSyncMode true
  else (t.setSyncMode false).releaseSyncPresentation.markAllDirty

end Terminal

/-- A private mode, by its number. -/
inductive PrivateMode where
  | applicationCursorKeys
  | origin
  | autoWrap
  | cursorVisible
  | mouse (mode : MouseMode)
  | focusEvents
  | utf8Mouse
  | sgrMouse
  | urxvtMouse
  | pixelMouse
  | alternateScroll
  | saveCursor
  | alternateScreen (parks : Bool)
  | bracketedPaste
  | synchronizedOutput
deriving DecidableEq, Repr

def PrivateMode.decode (mode : Nat) : Option PrivateMode :=
  match mode with
  | 1 => some .applicationCursorKeys
  | 6 => some .origin
  | 7 => some .autoWrap
  | 25 => some .cursorVisible
  | 47 => some (.alternateScreen false)
  | 1000 => some (.mouse .normal)
  | 1002 => some (.mouse .buttonEvent)
  | 1003 => some (.mouse .anyEvent)
  | 1004 => some .focusEvents
  | 1005 => some .utf8Mouse
  | 1006 => some .sgrMouse
  | 1007 => some .alternateScroll
  | 1015 => some .urxvtMouse
  | 1016 => some .pixelMouse
  | 1047 => some (.alternateScreen false)
  | 1048 => some .saveCursor
  | 1049 => some (.alternateScreen true)
  | 2004 => some .bracketedPaste
  | 2026 => some .synchronizedOutput
  | _ => none

/-- What a private mode does on its own screen. -/
def Handler.setMode (h : Handler) (mode : PrivateMode) (enable : Bool) : Handler :=
  match mode with
  | .applicationCursorKeys => { h with modes := { h.modes with applicationCursorKeys := enable } }
  | .origin => homeCursorToOrigin { h with modes := { h.modes with originMode := enable } }
  | .autoWrap => { h with modes := { h.modes with autoWrap := enable } }
  | .cursorVisible =>
    let h := { h with modes := { h.modes with cursorVisible := enable } }
    h.setCursor { h.cursor with visible := enable }
  | .mouse mode =>
    { h with modes := { h.modes with mouseTracking := if enable then mode else .none } }
  | .focusEvents => { h with modes := { h.modes with focusEvents := enable } }
  | .utf8Mouse => { h with modes := { h.modes with utf8Mouse := enable } }
  | .sgrMouse => { h with modes := { h.modes with sgrMouse := enable } }
  | .urxvtMouse => { h with modes := { h.modes with urxvtMouse := enable } }
  | .pixelMouse => { h with modes := { h.modes with pixelMouse := enable } }
  | .alternateScroll => { h with modes := { h.modes with alternateScroll := enable } }
  | .saveCursor => if enable then h.saveCursorState else h.restoreCursorState
  | .bracketedPaste => { h with modes := { h.modes with bracketedPaste := enable } }
  | .alternateScreen _ => h
  | .synchronizedOutput => h

namespace Terminal

def setPrivateMode (enable : Bool) (t : Terminal) (mode : Nat) : Checked Terminal :=
  match PrivateMode.decode mode with
  | none => pure t
  | some (.alternateScreen parks) =>
    if enable then t.enableAlternate parks else t.disableAlternate parks
  | some .synchronizedOutput => pure (t.setSynchronizedOutput enable)
  | some mode => t.onScreen fun h => pure (h.setMode mode enable)

/-! ## Sequences -/

def csiDispatch [Crates] (t : Terminal) (params : Params) (intermediates : List UInt8)
    (ignore : Bool) (action : Char) : Checked Terminal :=
  let t := if continuesTheCluster action intermediates then t
    else { t with activeGraphemeCell := none }
  if ignore then pure t
  else
    match Csi.decode action intermediates with
    | none => pure t
    | some (.setPrivateMode enable) => each params.flatten t (setPrivateMode enable)
    | some op => t.onScreen fun h => h.csi op params

/-- Return to the primary screen, and reset everything on it. -/
def fullReset (t : Terminal) : Checked Terminal := do
  let t := t.releaseSyncPresentation
  let t := if t.modes.alternateScreen then t.swapLeave false else t
  let grid ← t.grid.clearVisible .default
  let grid := grid.clearScrollback.markAllDirty.unplaceAll
  pure { t with
    grid
    cursor := .new
    modes := {}
    defaultColors := .default
    lastGraphic := none
    graphics := { t.graphics with
      primaryStore := t.graphics.primaryStore.clear
      altStore := t.graphics.altStore.clear }
    charsets := .default
    tabStops := t.tabStops.reset grid.cols
    scrollRegion := ⟨0, grid.rows - 1⟩ }

def escDispatch (t : Terminal) (intermediates : List UInt8) (ignore : Bool) (byte : UInt8) :
    Checked Terminal :=
  let t := { t with activeGraphemeCell := none }
  if ignore then pure t
  else
    match Esc.decode byte intermediates with
    | none => pure t
    | some .fullReset => t.fullReset
    | some op => t.onScreen fun h => h.esc op

end Terminal

namespace Handler

/-- Go down one line below a picture, scrolling at the bottom of the grid. -/
def downBelowImage (h : Handler) : Checked Handler :=
  if h.grid.rows ≤ h.cursor.row + 1 then do
    let last ← sub h.grid.rows 1
    h.onGrid fun g => g.scrollUp 0 last
  else pure (h.setCursor { h.cursor with row := h.cursor.row + 1 })

/-- Move the cursor past a picture of some size: right of it, or to the line below. -/
def advancePastImage (h : Handler) (cols rows : Nat) : Checked Handler := do
  let above ← sub rows 1
  let target := h.cursor.col + cols
  let wraps := decide (h.grid.cols ≤ target)
  let h := h.setCursor { h.cursor with col := if wraps then 0 else target }
  each (List.replicate (if wraps then above + 1 else above) ()) h fun h _ => h.downBelowImage

/-- Anchor a picture at the cursor and advance past it; the flag says whether it was
refused. -/
def placeImage (h : Handler) (image : StoredImage) (cmd : Command) : Checked (Handler × Bool) := do
  let geometry ← ImageGeometry.resolve image.width image.height cmd (h.grid.cols, h.grid.rows)
  match geometry with
  | none => pure (h, false)
  | some geometry =>
    let cols := min geometry.cells.1 h.grid.cols
    let rows := min geometry.cells.2 h.grid.rows
    if cols = 0 ∨ rows = 0 then pure (h, false)
    else do
      let placement : Placement := {
        image
        absRow := h.grid.evicted + h.grid.scrollbackLen + h.cursor.row
        col := h.cursor.col
        imageId := cmd.imageId
        placementId := cmd.placementId
        z := cmd.z
        geometry }
      let (grid, placed) ← h.grid.put placement
      let h := h.setGrid grid
      if !placed then pure (h, true)
      else if cmd.noCursorMove then pure (h, false)
      else
        let h ← h.advancePastImage cols rows
        pure (h, false)

end Handler

/-- Whether a placement covers a screen column, or an absolute row. -/
def Placement.coversCol (p : Placement) (col : Nat) : Bool :=
  decide (p.col ≤ col) && decide (col < p.col + p.geometry.cells.1)

def Placement.coversRow (p : Placement) (row : Nat) : Bool :=
  decide (p.absRow ≤ row) && decide (row < p.absRow + p.geometry.cells.2)

/-- The target of a delete command. -/
def Command.deleteTarget (cmd : Command) : Char :=
  if cmd.delete = 0 then 'a' else Char.ofNat cmd.delete.toNat

/-- The placements a delete command hits, `none` for a target that is refused. A coordinate
of zero names no cell. -/
def deleteHit (cmd : Command) (s : Screen) : Option (Placement → Bool) :=
  let first := s.grid.evicted + s.grid.scrollbackLen
  let inCol (p : Placement) : Bool := (checkedPred cmd.srcX).any p.coversCol
  let inRow (p : Placement) : Bool := (checkedPred cmd.srcY).any fun y => p.coversRow (first + y)
  match cmd.deleteTarget.toLower with
  | 'a' => some fun p =>
    decide (p.absRow < first + s.grid.rows) && decide (first < p.absRow + p.geometry.cells.2)
  | 'i' =>
    if cmd.imageId = 0 then none
    else some fun p => p.imageId == cmd.imageId &&
      (cmd.placementId == 0 || p.placementId == cmd.placementId)
  | 'r' =>
    if cmd.srcX ≤ cmd.srcY then
      some fun p => decide (cmd.srcX ≤ p.imageId) && decide (p.imageId ≤ cmd.srcY)
    else none
  | 'c' => some fun p => p.coversCol s.cursor.col && p.coversRow (first + s.cursor.row)
  | 'p' => some fun p => inCol p && inRow p
  | 'q' => some fun p => p.z == cmd.z && (inCol p && inRow p)
  | 'x' => some inCol
  | 'y' => some inRow
  | 'z' => some fun p => p.z == cmd.z
  | _ => none

/-- The images a delete command names outright. -/
def deleteNames (cmd : Command) (id : Nat) : Bool :=
  match cmd.deleteTarget with
  | 'I' => cmd.placementId == 0 && id == cmd.imageId
  | 'R' => decide (cmd.srcX ≤ id) && decide (id ≤ cmd.srcY)
  | _ => false

namespace Terminal

/-- Replace the store of the screen now showing. -/
def setStore (t : Terminal) (store : ImageStore) : Terminal :=
  { t with graphics := t.graphics.setStore t.modes.alternateScreen store }

def store (t : Terminal) : ImageStore := t.graphics.store t.modes.alternateScreen

def refuse (t : Terminal) : Terminal := { t with graphics := t.graphics.refuse }

/-- Drop the placements a command hits; an uppercase target also frees the images it
removed or named, once nothing shows them. -/
def deleteImages (t : Terminal) (cmd : Command) : Checked Terminal :=
  match deleteHit cmd t.toScreen with
  | none => pure t.refuse
  | some hit => do
    let removed := (t.grid.unplaceWhere hit).2
    let t ← t.onScreen fun h => pure (h.setGrid (h.grid.unplaceWhere hit).1)
    if cmd.deleteTarget.isUpper then
      let store ← t.store.retain fun id =>
        !(removed.contains id || deleteNames cmd id) || t.grid.showsImage id
      pure (t.setStore store)
    else pure t

/-- Place an image at the cursor. -/
def placeImage (t : Terminal) (image : StoredImage) (cmd : Command) : Checked Terminal := do
  let (h, refused) ← Handler.placeImage ⟨t.toScreen, .nothing⟩ image cmd
  let t := t.commit h
  pure (if refused then t.refuse else t)

/-- The first command of a transmission drops the image it replaces, and its placements. -/
def openTransfer (t : Terminal) (cmd : Command) : Checked Terminal :=
  if t.graphics.assembler.isOpen then pure t
  else
    let t := { t with graphics := { t.graphics with transferOnAlt := t.modes.alternateScreen } }
    if cmd.imageId = 0 then pure t
    else do
      let store ← t.store.retain (· != cmd.imageId)
      (t.setStore store).onScreen fun h => pure (h.setGrid (h.grid.unplaceImage cmd.imageId 0).1)

/-- Keep a completed image, and place it when its transmission asked for that. -/
def finishTransfer (t : Terminal) (image : StoredImage) (cmd : Command) : Checked Terminal :=
  if t.graphics.transferOnAlt ≠ t.modes.alternateScreen then pure t.refuse
  else do
    let t ← (if cmd.imageId = 0 then pure t
      else do
        let store ← t.store.insert cmd.imageId image
        pure (t.setStore store))
    if cmd.action = .transmitAndPlace then t.placeImage image cmd else pure t

/-- Feed one chunk of a transmission. -/
def transmit [Crates] (t : Terminal) (cmd : Command) (payload : List UInt8) :
    Checked Terminal := do
  let t ← t.openTransfer cmd
  let (assembler, done) := t.graphics.assembler.feed cmd payload
  let t := { t with graphics := { t.graphics with assembler } }
  match done with
  | none => pure t
  | some (image, opening) => t.finishTransfer image opening

def abortTransfer (t : Terminal) : Terminal :=
  { t with graphics := { t.graphics with assembler := t.graphics.assembler.abort } }

/-- Place a stored image. -/
def putImage (t : Terminal) (cmd : Command) : Checked Terminal :=
  let (store, image) := t.store.get cmd.imageId
  let t := t.setStore store
  match image with
  | some image => t.placeImage image cmd
  | none => pure t.refuse

/-- Act on one graphics command; `none` is a control block outside the protocol. -/
def dispatchGraphics [Crates] (t : Terminal) (cmd : Option Command) (payload : List UInt8) :
    Checked Terminal :=
  match cmd with
  | none => pure t.refuse.abortTransfer
  | some cmd =>
    match cmd.action with
    | .transmit => t.transmit cmd payload
    | .transmitAndPlace => t.transmit cmd payload
    | .put => t.putImage cmd
    | .delete => do
      let t ← t.deleteImages cmd
      pure t.abortTransfer
    | .query =>
      pure (if cmd.imageId = 0 then t
        else
          { t with
            responses := t.responses ++ ["\x1b_Gi=" ++ toString cmd.imageId ++ ";OK\x1b\\"] })
    | .animation => pure t

end Terminal

/-- What the parser and the scanners call the terminal with, in stream order. -/
inductive Call where
  | print (ch : Char)
  | execute (byte : UInt8)
  | csi (params : Params) (intermediates : List UInt8) (ignore : Bool) (action : Char)
  | esc (intermediates : List UInt8) (ignore : Bool) (byte : UInt8)
  | osc (params : List (List UInt8)) (bell : Bool)
  | hook (intermediates : List UInt8) (ignore : Bool) (action : Char)
  | put (byte : UInt8)
  | unhook
  | graphics (cmd : Option Command) (payload : List UInt8)
  | status (reply : Option String)
deriving DecidableEq, Repr

namespace Terminal

variable [Crates]

/-- Carry out one call. -/
def call (t : Terminal) : Call → Checked Terminal
  | .print ch => t.onScreen fun h => h.print ch
  | .execute byte => t.onScreen fun h => h.execute byte
  | .csi params intermediates ignore action => t.csiDispatch params intermediates ignore action
  | .esc intermediates ignore byte => t.escDispatch intermediates ignore byte
  | .osc params bell => t.onScreen fun h => pure (h.oscDispatch params bell)
  | .hook intermediates ignore action => t.onScreen fun h =>
      pure (h.hook intermediates ignore action)
  | .put byte => t.onScreen fun h => pure (h.putDcs byte)
  | .unhook => t.onScreen fun h => pure h.unhook
  | .graphics cmd payload => t.dispatchGraphics cmd payload
  | .status reply => t.onScreen fun h => pure ((reply.map h.pushResponse).getD h)

/-- The part of the cursor a batch is judged by. -/
def cursorKey (cursor : Cursor) : Nat × Nat × Bool := (cursor.row, cursor.col, cursor.visible)

/-- Whether a batch changed the live frame: the screen, the cursor, or the write tally of
the same grid. -/
def otherClassA (before after : Terminal) : Bool :=
  after.modes.alternateScreen != before.modes.alternateScreen ||
    cursorKey after.cursor != cursorKey before.cursor ||
    (after.modes.alternateScreen == before.modes.alternateScreen &&
      after.grid.mutations != before.grid.mutations)

/-- Count a batch. While the presentation is held, changes behind it are deferred; a change
of the presented colours is not. -/
def recordBatch (before after : Terminal) : Terminal :=
  let colorsChanged := after.presentedColors != before.presentedColors
  let other := otherClassA before after
  if after.syncArmed then
    let t := if colorsChanged then after.recordClassABatch else after
    if other then { t with syncHiddenClassA := true } else t
  else if after.syncHiddenClassA || colorsChanged || other then
    recordClassABatch { after with syncHiddenClassA := false }
  else after

/-- Deadline bookkeeping at the end of a batch. -/
def stampSync (t : Terminal) (len now : Nat) : Terminal :=
  if t.syncArmed then
    { t with
      syncOpenedNs := if t.syncOpenedNs = 0 then now else t.syncOpenedNs
      syncBytes := t.syncBytes + len }
  else { t with syncOpenedNs := 0, syncBytes := 0 }

/-- A window that has absorbed too much output is released before the batch. -/
def releaseOverfull (t : Terminal) : Terminal :=
  if t.syncArmed && decide (syncUpdateMaxBytes ≤ t.syncBytes) then t.forceReleaseSync else t

/-- Process a batch of `len` bytes, given as the calls its bytes make, and return the
replies. -/
def processWithResponses (t : Terminal) (len now : Nat) (calls : List Call) :
    Checked (Terminal × List String) := do
  let before := t.releaseOverfull
  let after ← each calls { before with responses := [] } call
  let t := (recordBatch before after).stampSync len now
  pure (t, t.responses)

/-- Resize the live screen and the parked one; only the primary one reflows. -/
def resizeScreens (t : Terminal) (rows cols : Nat) : Checked Terminal :=
  if t.modes.alternateScreen then do
    let grid ← t.grid.resizeCanvas rows cols
    match t.altGrid with
    | none => pure { t with grid }
    | some primary =>
      match t.altCursor with
      | some cursor => do
        let (primary, position) ←
          primary.resizeWithCursor rows cols (some (cursor.row, cursor.col))
        let cursor := match position with
          | some (row, col) => { cursor with row, col }
          | none => cursor
        pure { t with
          grid
          altGrid := some primary
          altCursor := some (cursor.clamp rows cols) }
      | none => do
        let (primary, _) ← primary.resizeWithCursor rows cols none
        pure { t with grid, altGrid := some primary }
  else do
    let (grid, position) ← t.grid.resizeWithCursor rows cols (some (t.cursor.row, t.cursor.col))
    let cursor := match position with
      | some (row, col) => { t.cursor with row, col }
      | none => t.cursor
    match t.altGrid with
    | none => pure { t with grid, cursor }
    | some alt => do
      let alt ← alt.resizeCanvas rows cols
      pure { t with grid, cursor, altGrid := some alt }

/-- Resize the terminal. A change of size releases an open window first, and drops the
retired grid. -/
def resize (t : Terminal) (rows cols : Nat) : Checked Terminal := do
  let rows := max rows 1
  let cols := max cols 1
  let changed := rows != t.rows || cols != t.cols
  let t := if changed && t.syncArmed then { t.forceReleaseSync with syncHiddenClassA := false }
    else t
  let t := { t with
    activeGraphemeCell := none
    altSpare := if changed then none else t.altSpare }
  let t ← t.resizeScreens rows cols
  let t := { t with
    rows := rows
    cols := cols
    tabStops := t.tabStops.resize cols
    scrollRegion := ⟨0, rows - 1⟩
    cursor := t.cursor.clamp rows cols
    altCursor := t.altCursor.map fun cursor => cursor.clamp rows cols
    frozenCursor := t.frozenCursor.map fun cursor => cursor.clamp rows cols }
  pure (if changed then t.recordClassABatch else t)

end Terminal

/-- What a terminal is driven by. -/
inductive Step where
  | process (len now : Nat) (calls : List Call)
  | resize (rows cols : Nat)
  | enterAlternateScreen
  | leaveAlternateScreen
  | releaseExpiredSync (now : Nat)
deriving Repr

/-- A step, or one of the requests that drain or drop what the terminal holds. -/
inductive Event where
  | step (step : Step)
  | takeDirtyRegions
  | clearScrollback
deriving Repr

namespace Terminal

variable [Crates]

/-- Carry out one step, and return its replies. -/
def step (t : Terminal) : Step → Checked (Terminal × List String)
  | .process len now calls => t.processWithResponses len now calls
  | .resize rows cols => do
    let t ← t.resize rows cols
    pure (t, [])
  | .enterAlternateScreen => pure (t.enterAlternateScreen, [])
  | .leaveAlternateScreen => pure (t.leaveAlternateScreen, [])
  | .releaseExpiredSync now => pure ((t.releaseExpiredSync now).1, [])

/-- Carry out one event. -/
def event (t : Terminal) : Event → Checked Terminal
  | .step step => do
    let (t, _) ← t.step step
    pure t
  | .takeDirtyRegions => pure t.takeDirtyRegions.1
  | .clearScrollback => pure t.clearScrollback

/-- Carry out a sequence of events. -/
def run (t : Terminal) (events : List Event) : Checked Terminal := each events t event

end Terminal

end Shux.Vt
