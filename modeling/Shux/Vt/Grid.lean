/-
# The terminal grid

A grid is one deque of rows: scrollback first, then the `rows` visible ones. It tracks
which visible cells changed, tallies its writes, and counts the lines that have fallen
off the front, which is the coordinate placements are anchored in. The counters only
grow; they are saturating 64-bit numbers in the program and unbounded here.
-/

import Shux.Vt.Row
import Shux.Vt.Dirty
import Shux.Vt.Image

namespace Shux.Vt

open Checked

/-- Configuration for the grid. -/
structure GridConfig where
  maxScrollback : Nat
  trackDirty : Bool
deriving DecidableEq, Repr

def GridConfig.default : GridConfig := ⟨5000, true⟩

/-- Placements one grid may hold. -/
def maxPlacements : Nat := 256

structure Grid where
  raw : List Row
  rows : Nat
  cols : Nat
  config : GridConfig
  dirty : DirtyState
  mutations : Nat
  placements : List Placement
  placedBytes : Nat
  evicted : Nat
deriving DecidableEq, Repr

namespace Grid

/-- Create a new grid with the given dimensions. -/
def new (rows cols : Nat) (config : GridConfig) : Grid where
  raw := List.replicate rows (Row.new cols)
  rows := rows
  cols := cols
  config := config
  dirty := .new rows config.trackDirty
  mutations := 0
  placements := []
  placedBytes := 0
  evicted := 0

/-- Whether the grid can stand for a new one of the given dimensions, judged by its
write tally, its dimensions and its number of lines. -/
def isBlankCanvas (g : Grid) (rows cols : Nat) (config : GridConfig) : Bool :=
  g.mutations == 0 && g.rows == rows && g.cols == cols && g.raw.length == rows &&
    g.config == config

/-- Return the grid to the state of a new one, reusing its rows. -/
def resetBlank (g : Grid) (rows cols : Nat) (config : GridConfig) : Grid :=
  let kept := (g.raw.take rows).map fun row => row.resetBlank cols
  { g with
    raw := kept ++ List.replicate (rows - kept.length) (Row.new cols)
    rows := rows
    cols := cols
    dirty := g.dirty.reset rows config.trackDirty
    config := config
    mutations := 0
    evicted := 0
    placements := []
    placedBytes := 0 }

def bumpMutations (g : Grid) : Grid := { g with mutations := g.mutations + 1 }

/-- Consume and clear dirty regions for the visible viewport. -/
def takeDirtyRegions (g : Grid) : Grid × List DirtyRegion :=
  let (dirty, regions) := g.dirty.take g.rows g.cols
  ({ g with dirty }, regions)

/-- Mark the full visible viewport dirty. Advances no tally. -/
def markAllDirty (g : Grid) : Grid := { g with dirty := g.dirty.markAll }

/-- Number of scrollback lines above the visible area. -/
def scrollbackLen (g : Grid) : Nat := g.raw.length - g.rows

def totalLines (g : Grid) : Nat := g.raw.length

/-- Access a visible row. -/
def visibleRow (g : Grid) (row : Nat) : Checked Row := index g.raw (g.scrollbackLen + row)

/-- Access a row by absolute line index across scrollback and visible area. -/
def row (g : Grid) (row : Nat) : Option Row := g.raw[row]?

/-- Change a visible row, without marking it. -/
def editRow {β : Type} (g : Grid) (row : Nat) (f : Row → Checked (Row × β)) :
    Checked (Grid × β) := do
  let old ← index g.raw (g.scrollbackLen + row)
  let (new, out) ← f old
  let raw ← assign g.raw (g.scrollbackLen + row) new
  pure ({ g with raw }, out)

/-- Change a visible row after marking it dirty. -/
def editRowMarked {β : Type} (g : Grid) (row : Nat) (f : Row → Checked (Row × β)) :
    Checked (Grid × β) := do
  let g := g.bumpMutations
  let dirty ← g.dirty.markRow row g.rows g.cols
  editRow { g with dirty } row f

/-- Change a visible row after marking it dirty, by an edit with no result. -/
def modifyRowMarked (g : Grid) (row : Nat) (f : Row → Checked Row) : Checked Grid := do
  let (g, _) ← g.editRowMarked row fun old => do
    let new ← f old
    pure (new, ())
  pure g

/-- Clamp a scroll region to rows that exist. -/
def clampRegion (g : Grid) (top bottom : Nat) : Option (Nat × Nat) :=
  if g.rows = 0 then none
  else if min bottom (g.rows - 1) < top then none
  else some (top, min bottom (g.rows - 1))

/-- A blank row in place of another. -/
def blankRow (cols : Nat) (row : Row) : Row :=
  if row.len = cols then row.reset .default else Row.new cols

/-- Exchange rows from both ends towards the middle. The fuel is the distance of the ends,
which each exchange shortens by two. -/
def reverseLoop : Nat → Nat → Nat → List Row → Checked (List Row)
  | 0, _, _, raw => pure raw
  | fuel + 1, i, j, raw =>
    if i < j then do
      let raw ← swap raw i j
      let j ← sub j 1
      reverseLoop fuel (i + 1) j raw
    else pure raw

/-- Reverse the rows of a range in place. -/
def reverseRange (raw : List Row) (start stop : Nat) : Checked (List Row) :=
  if stop ≤ start then pure raw
  else do
    let last ← sub stop 1
    reverseLoop (stop - start) start last raw

/-- Rotate the rows of a range left, by three reversals. -/
def rotateRangeLeft (raw : List Row) (start stop n : Nat) : Checked (List Row) := do
  let len ← sub stop start
  if len = 0 then pure raw
  else
    let n := n % len
    if n = 0 then pure raw
    else
      let raw ← reverseRange raw start (start + n)
      let raw ← reverseRange raw (start + n) stop
      reverseRange raw start stop

/-- Change the rows of a range, one after the other. -/
def mapRows (raw : List Row) (start stop : Nat) (f : Row → Row) : Checked (List Row) :=
  each (span start stop) raw fun raw i => update raw i fun row => pure (f row)

/-- Blank the rows of a range. -/
def blankRows (raw : List Row) (cols start stop : Nat) : Checked (List Row) :=
  mapRows raw start stop (blankRow cols)

/-- Move the oldest row, blanked, to the end of the deque, some number of times; how often
it happened comes with the deque. -/
def recycle (cols : Nat) : Nat → List Row → List Row × Nat
  | 0, raw => (raw, 0)
  | _ + 1, [] => ([], 0)
  | n + 1, row :: raw =>
    let (raw, moved) := recycle cols n (raw ++ [blankRow cols row])
    (raw, moved + 1)

/-- Mark the rows a scroll of a region dirtied. -/
def markScrolled (g : Grid) (top bottom : Nat) : Checked Grid :=
  if top = 0 ∧ bottom = g.rows - 1 then pure { g with dirty := g.dirty.markAll }
  else do
    let dirty ← g.dirty.markRows top (bottom + 1) g.rows g.cols
    pure { g with dirty }

/-- Scroll the whole screen up: lines go to the scrollback, and the oldest go for good. -/
def scrollScreenUp (g : Grid) (n : Nat) : Checked Grid := do
  let maxTotal := g.rows + g.config.maxScrollback
  let grow := min n (maxTotal - g.raw.length)
  let raw := g.raw ++ List.replicate grow (Row.new g.cols)
  let rest ← sub n grow
  let (raw, moved) := recycle g.cols rest raw
  let excess := raw.length - maxTotal
  pure { g with raw := raw.drop excess, evicted := g.evicted + moved + excess }

/-- Scroll a region up by `n` lines in one bulk operation. -/
def scrollUpN (g : Grid) (top bottom n : Nat) : Checked Grid :=
  match g.clampRegion top bottom with
  | none => pure g
  | some (top, bottom) => do
    let reach ← sub bottom top
    let n := min n (reach + 1)
    if n = 0 then pure g
    else
      let g := { g with mutations := g.mutations + n }
      let last ← sub g.rows 1
      if top = 0 ∧ bottom = last then
        let g ← g.scrollScreenUp n
        g.markScrolled top bottom
      else
        let start := g.scrollbackLen + top
        let stop := g.scrollbackLen + bottom + 1
        let raw ← rotateRangeLeft g.raw start stop n
        let first ← sub stop n
        let raw ← blankRows raw g.cols first stop
        markScrolled { g with raw } top bottom

/-- Scroll a region down by `n` lines in one bulk operation. -/
def scrollDownN (g : Grid) (top bottom n : Nat) : Checked Grid :=
  match g.clampRegion top bottom with
  | none => pure g
  | some (top, bottom) => do
    let reach ← sub bottom top
    let height := reach + 1
    let n := min n height
    if n = 0 then pure g
    else
      let g := { g with mutations := g.mutations + n }
      let start := g.scrollbackLen + top
      let stop := g.scrollbackLen + bottom + 1
      -- rotating right by `n` is rotating left by the rest
      let turn ← sub height n
      let raw ← rotateRangeLeft g.raw start stop turn
      let raw ← blankRows raw g.cols start (start + n)
      markScrolled { g with raw } top bottom

def scrollUp (g : Grid) (top bottom : Nat) : Checked Grid := g.scrollUpN top bottom 1

def scrollDown (g : Grid) (top bottom : Nat) : Checked Grid := g.scrollDownN top bottom 1

/-- Change every visible row, mark them all and count one write. -/
def mapVisible (g : Grid) (f : Row → Row) : Checked Grid := do
  let g := g.bumpMutations
  let raw ← mapRows g.raw g.scrollbackLen g.raw.length f
  let dirty ← g.dirty.markRows 0 g.rows g.rows g.cols
  pure { g with raw, dirty }

/-- Clear all visible rows. -/
def clearVisible (g : Grid) (bg : Color) : Checked Grid := g.mapVisible fun row => row.reset bg

/-- Fill the whole visible viewport with the alignment pattern. -/
def fillAlignmentPattern (g : Grid) : Checked Grid := g.mapVisible Row.fillAlignmentPattern

/-- Clear rows from `startRow` to the end of the visible area. -/
def clearBelow (g : Grid) (startRow : Nat) (bg : Color) : Checked Grid := do
  let g := g.bumpMutations
  let raw ← mapRows g.raw (g.scrollbackLen + startRow) g.raw.length fun row => row.reset bg
  let dirty ← g.dirty.markRows startRow g.rows g.rows g.cols
  pure { g with raw, dirty }

/-- Clear rows from the top of the visible area to `endRow`, inclusive. -/
def clearAbove (g : Grid) (endRow : Nat) (bg : Color) : Checked Grid := do
  let g := g.bumpMutations
  let raw ← mapSlice g.raw g.scrollbackLen (g.scrollbackLen + endRow + 1) fun row => row.reset bg
  let dirty ← g.dirty.markRows 0 (endRow + 1) g.rows g.cols
  pure { g with raw, dirty }

/-- Clear the scrollback buffer entirely. -/
def clearScrollback (g : Grid) : Grid :=
  { g with raw := g.raw.drop g.scrollbackLen, evicted := g.evicted + g.scrollbackLen }

/-- Erase `count` characters in the visible area. -/
def eraseChars (g : Grid) (row col count : Nat) (bg : Color) : Checked Grid := do
  let (g, dirty) ← g.bumpMutations.editRow row fun r => r.eraseCharsExpandingWidePairs col count bg
  match dirty with
  | none => pure g
  | some (first, last) => do
    let dirty ← g.dirty.markRange row first last g.rows g.cols
    pure { g with dirty }

/-- Insert `count` blank cells in a visible row, shifting existing cells right. -/
def insertChars (g : Grid) (row col count : Nat) : Checked Grid := do
  let (g, len) ← g.bumpMutations.editRow row fun r => do
    let new ← r.insertChars col count
    pure (new, r.len)
  if 0 < count ∧ col < len then
    let dirty ← g.dirty.markRange row (col - 1) len g.rows g.cols
    pure { g with dirty }
  else pure g

/-- Delete `count` cells in a visible row, shifting remaining cells left. -/
def deleteChars (g : Grid) (row col count : Nat) : Checked Grid := do
  let (g, deleted) ← g.bumpMutations.editRow row fun r =>
    let actual := min count (r.len - col)
    if actual = 0 then pure (r, none)
    else do
      let new ← r.deleteChars col actual
      pure (new, some r.len)
  match deleted with
  | none => pure g
  | some len => do
    let dirty ← g.dirty.markRange row (col - 1) len g.rows g.cols
    pure { g with dirty }

/-- Payload bytes of a list of placements. -/
def placementBytes (placements : List Placement) : Nat :=
  (placements.map fun p => p.image.payload.length).sum

/-- Whether a placement still has a row that has not fallen off the front of the grid. -/
def placementLive (evicted : Nat) (p : Placement) : Bool :=
  decide (evicted < p.absRow + p.geometry.cells.2)

/-- Drop placements whose last row has fallen off the front of the grid. -/
def pruneEvictedPlacements (g : Grid) : Grid :=
  let freed := placementBytes (g.placements.filter fun p => !placementLive g.evicted p)
  { g with
    placements := g.placements.filter (placementLive g.evicted)
    placedBytes := g.placedBytes - freed }

/-- Add a placement, or replace the one with the same image and nonzero placement id where
it stands. The flag is false when it is refused. -/
def put (g : Grid) (p : Placement) : Checked (Grid × Bool) :=
  let g := g.pruneEvictedPlacements
  let same (q : Placement) : Bool :=
    p.imageId != 0 && p.placementId != 0 && q.imageId == p.imageId &&
      q.placementId == p.placementId
  match g.placements.findIdx? same with
  | some i => do
    let old ← index g.placements i
    let rest := g.placedBytes - old.image.payload.length
    if maxImageBytes < rest + p.image.payload.length then pure (g, false)
    else
      let placements ← assign g.placements i p
      pure ({ g with
        placedBytes := rest + p.image.payload.length
        placements
        mutations := g.mutations + 1 }, true)
  | none =>
    if maxPlacements ≤ g.placements.length ∨
        maxImageBytes < g.placedBytes + p.image.payload.length then pure (g, false)
    else
      pure ({ g with
        placedBytes := g.placedBytes + p.image.payload.length
        placements := g.placements ++ [p]
        mutations := g.mutations + 1 }, true)

/-- Drop the placements `gone` picks; the image ids it dropped come with the grid. -/
def unplaceWhere (g : Grid) (gone : Placement → Bool) : Grid × List Nat :=
  let dropped := g.placements.filter gone
  let ids := dropped.map fun p => p.imageId
  ({ g with
      placements := g.placements.filter fun p => !gone p
      placedBytes := g.placedBytes - placementBytes dropped
      mutations := if ids.isEmpty then g.mutations else g.mutations + 1 },
    ids)

/-- Drop an image's placements, or just one when `placementId` is nonzero. -/
def unplaceImage (g : Grid) (imageId placementId : Nat) : Grid × List Nat :=
  g.unplaceWhere fun q => q.imageId == imageId &&
    (placementId == 0 || q.placementId == placementId)

/-- Whether any placement shows an image. -/
def showsImage (g : Grid) (id : Nat) : Bool := g.placements.any fun q => q.imageId == id

/-- Drop every placement. -/
def unplaceAll (g : Grid) : Grid :=
  if g.placements.isEmpty then g
  else { g with placements := [], placedBytes := 0, mutations := g.mutations + 1 }

/-- Clone just the visible viewport, with its pending repaint state, as a grid of its own. -/
def clonePresentedViewport (g : Grid) : Grid :=
  { g with
    raw := g.raw.drop g.scrollbackLen
    config := { g.config with maxScrollback := g.rows }
    evicted := g.evicted + g.scrollbackLen }

end Grid

end Shux.Vt
