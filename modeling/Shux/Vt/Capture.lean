/-
# Captured frames

A frame is captured for comparison as an envelope: for each row the maximal runs of cells
that share a style, blank cells in the default style left out. A run is a string when all
its cells are single scalars one column wide, and otherwise an array with an entry for each
column, the empty entry standing for the second column of a wide character. Masked columns
become runs without content.

The encoder, the decoder and the validator follow the source one by one. Columns and rows
are cast to sixteen bits where the source casts them.
-/

import Shux.Vt.Handler

namespace Shux.Vt

open Checked

/-- A cast to sixteen bits. -/
def asU16 (n : Nat) : Nat := n % 2 ^ 16

theorem asU16_lt (n : Nat) : asU16 n < 2 ^ 16 := Nat.mod_lt _ (by decide)

theorem asU16_of_lt {n : Nat} (h : n < 2 ^ 16) : asU16 n = n := Nat.mod_eq_of_lt h

def schemaVersion : Nat := 1

/-- Semantic colour on the wire; the default is an absent field. -/
inductive CapColor where
  | idx (i : UInt8)
  | rgb (r g b : UInt8)
deriving DecidableEq, Repr

namespace CapColor

def fromColor : Color → Option CapColor
  | .default => none
  | .indexed i => some (.idx i)
  | .rgb r g b => some (.rgb r g b)

def toColor : CapColor → Color
  | .idx i => .indexed i
  | .rgb r g b => .rgb r g b

end CapColor

def colorFromOpt (color : Option CapColor) : Color := (color.map CapColor.toColor).getD .default

/-- The style of a run, extended attributes included. -/
structure CapStyle where
  fg : Option CapColor
  bg : Option CapColor
  bold : Bool
  dim : Bool
  italic : Bool
  underline : Bool
  blink : Bool
  inverse : Bool
  hidden : Bool
  strikethrough : Bool
  hyperlink : Option String
  underlineColor : Option CapColor
  underlineStyle : UnderlineStyle
deriving DecidableEq, Repr

namespace CapStyle

def fromCell (cell : Cell) : CapStyle where
  fg := CapColor.fromColor cell.style.fg
  bg := CapColor.fromColor cell.style.bg
  bold := cell.style.flags.contains CellFlags.bold
  dim := cell.style.flags.contains CellFlags.dim
  italic := cell.style.flags.contains CellFlags.italic
  underline := cell.style.flags.contains CellFlags.underline
  blink := cell.style.flags.contains CellFlags.blink
  inverse := cell.style.flags.contains CellFlags.inverse
  hidden := cell.style.flags.contains CellFlags.hidden
  strikethrough := cell.style.flags.contains CellFlags.strikethrough
  hyperlink := cell.extended.bind (·.hyperlink)
  underlineColor := (cell.extended.bind (·.underlineColor)).bind CapColor.fromColor
  underlineStyle := (cell.extended.map (·.underlineStyle)).getD .none

/-- The flags, set one after the other. -/
def toFlags (style : CapStyle) : CellFlags :=
  let put (on : Bool) (flag : UInt8) (flags : CellFlags) := if on then flags.set flag else flags
  put style.strikethrough CellFlags.strikethrough (put style.hidden CellFlags.hidden
    (put style.inverse CellFlags.inverse (put style.blink CellFlags.blink
      (put style.underline CellFlags.underline (put style.italic CellFlags.italic
        (put style.dim CellFlags.dim (put style.bold CellFlags.bold .none)))))))

/-- The extended attributes a style implies, `none` when all of them are defaults. -/
def toExtended (style : CapStyle) (grapheme : Option (List Char)) : Option ExtendedAttrs :=
  let underlineColor := style.underlineColor.map CapColor.toColor
  if grapheme.isNone && style.hyperlink.isNone && underlineColor.isNone &&
      style.underlineStyle == .none then none
  else some ⟨grapheme, style.hyperlink, underlineColor, style.underlineStyle⟩

end CapStyle

/-- The payload of a run: a string, or an entry for each column. -/
inductive RunContent where
  | simple (text : List Char)
  | complex (entries : List (List Char))
deriving DecidableEq, Repr

/-- A span of cells of one style, or a masked region. -/
inductive Run where
  | cells (col : Nat) (content : RunContent) (style : CapStyle)
  | mask (col cells : Nat)
deriving DecidableEq, Repr

structure RowRepr where
  row : Nat
  runs : List Run
deriving DecidableEq, Repr

structure CursorRepr where
  row : Nat
  col : Nat
  visible : Bool
  shape : CursorShape
deriving DecidableEq, Repr

/-- The size of a frame, in sixteen bits. -/
structure Size where
  rows : Nat
  cols : Nat
  rows_lt : rows < 2 ^ 16
  cols_lt : cols < 2 ^ 16
deriving DecidableEq, Repr

theorem Size.one_lt_max : 1 < 2 ^ 16 := by decide

/-- Columns `col` to `col + width` of a row, to be redacted. -/
structure MaskRect where
  row : Nat
  col : Nat
  width : Nat
deriving DecidableEq, Repr

structure MaskSet where
  rects : List MaskRect
deriving DecidableEq, Repr

namespace MaskSet

def new : MaskSet := ⟨[]⟩

/-- A rectangle covers a position; its end saturates. -/
def covers (row col : Nat) (rect : MaskRect) : Bool :=
  rect.row == row && decide (rect.col ≤ col) &&
    decide (col < min (rect.col + rect.width) (2 ^ 16 - 1))

def masked (masks : MaskSet) (row col : Nat) : Bool := masks.rects.any (covers row col)

def anyInRow (masks : MaskSet) (row : Nat) : Bool := masks.rects.any fun rect => rect.row == row

/-- The leftmost column of the rectangles that cover a position. -/
def cursorRedactionCol (masks : MaskSet) (row col : Nat) : Option Nat :=
  ((masks.rects.filter (covers row col)).map MaskRect.col).min?

end MaskSet

/-- A self-describing snapshot of a terminal frame. -/
structure FrameEnvelope where
  schema : Nat
  size : Size
  altScreen : Bool
  defaults : TerminalDefaultColors
  cursor : CursorRepr
  paletteOverridden : Bool
  rows : List RowRepr
deriving DecidableEq, Repr

namespace Cell

/-- One scalar, one column wide. -/
def isSimple (cell : Cell) : Bool := cell.width == 1 && cell.grapheme.isNone

/-- A blank in the default style, which is left out. -/
def isBlankDefault (cell : Cell) : Bool :=
  cell.ch == ' ' && cell.width == 1 && cell.style == .default && cell.extended.isNone

end Cell

structure RunBuilder where
  start : Nat
  entries : List (List Char)
  style : CapStyle
  allSimple : Bool
  nextCol : Nat
deriving DecidableEq, Repr

def RunBuilder.finish (b : RunBuilder) : Run :=
  .cells b.start (if b.allSimple then .simple b.entries.flatten else .complex b.entries) b.style

/-- What the loop over the columns of a row carries. -/
structure RowEncoder where
  runs : List Run
  cur : Option RunBuilder
  maskStart : Option Nat
deriving DecidableEq, Repr

namespace RowEncoder

/-- Close the run at hand. -/
def flushCells (e : RowEncoder) : RowEncoder :=
  { e with runs := e.runs ++ (e.cur.map RunBuilder.finish).toList, cur := none }

/-- Close a masked region that ends before `colu`. -/
def endMask (e : RowEncoder) (colu : Nat) : RowEncoder :=
  { e with
    runs := e.runs ++ (e.maskStart.map fun start => Run.mask start (colu - start)).toList
    maskStart := none }

/-- The run a cell at `colu` goes into: the one at hand if it has the style and ends here. -/
def builderAt (e : RowEncoder) (style : CapStyle) (colu : Nat) : RowEncoder × RunBuilder :=
  match e.cur with
  | some b =>
    if b.style = style ∧ b.nextCol = colu then (e, b)
    else (e.flushCells, ⟨colu, [], style, true, colu⟩)
  | none => (e.flushCells, ⟨colu, [], style, true, colu⟩)

/-- Take in a cell that is not left out. -/
def pushCell (e : RowEncoder) (cell : Cell) (colu : Nat) : RowEncoder :=
  let (e, b) := e.builderAt (.fromCell cell) colu
  let b :=
    if cell.isWide then
      { b with
        entries := b.entries ++ [cell.displayText, []], allSimple := false
        nextCol := asU16 (colu + 2) }
    else
      { b with
        entries := b.entries ++ [cell.displayText], allSimple := b.allSimple && cell.isSimple
        nextCol := asU16 (colu + 1) }
  { e with cur := some b }

/-- The loop over the columns, from `col`. -/
def encodeFrom (cellAt : Nat → Cell) (masked : Nat → Bool) (cols : Nat) (e : RowEncoder)
    (col : Nat) : RowEncoder :=
  if col < cols then
    if masked col then
      let e := e.flushCells
      encodeFrom cellAt masked cols
        { e with maskStart := some (e.maskStart.getD (asU16 col)) } (col + 1)
    else
      let e := e.endMask (asU16 col)
      let cell := cellAt col
      if cell.isWideContinuation then encodeFrom cellAt masked cols e.flushCells (col + 1)
      else if cell.isBlankDefault then encodeFrom cellAt masked cols e.flushCells (col + 1)
      else
        encodeFrom cellAt masked cols (e.pushCell cell (asU16 col))
          (col + if cell.isWide then 2 else 1)
  else e
termination_by cols - col
decreasing_by all_goals (try split) <;> omega

end RowEncoder

/-- The cell of a visible row that the encoder sees. -/
def Grid.shownCell (g : Grid) (r col : Nat) : Cell :=
  ((g.row (g.scrollbackLen + r)).bind fun row => row.get col).getD .empty

/-- The masked columns of a row. A wide character is masked as a whole. -/
def maskedCols (g : Grid) (r cols : Nat) (masks : MaskSet) : List Bool :=
  (List.range cols).foldl (fun m c =>
      if (g.shownCell r c).isWide && decide (c + 1 < cols) &&
        (m.getD c false || m.getD (c + 1) false)
      then (m.set c true).set (c + 1) true else m)
    ((List.range cols).map fun c => masks.masked (asU16 r) (asU16 c))

def buildRowRuns (g : Grid) (r cols : Nat) (masks : MaskSet) : List Run :=
  let rowHasMasks := masks.anyInRow (asU16 r)
  let maskedCol := if rowHasMasks then maskedCols g r cols masks else []
  let e := RowEncoder.encodeFrom (g.shownCell r)
    (fun c => rowHasMasks && maskedCol.getD c false) cols ⟨[], none, none⟩ 0
  (e.flushCells.endMask (asU16 cols)).runs

namespace FrameEnvelope

/-- Capture the visible frame of a grid. -/
def fromParts (g : Grid) (cursor : Cursor) (defaults : TerminalDefaultColors)
    (altScreen paletteOverridden : Bool) (masks : MaskSet) : FrameEnvelope where
  schema := schemaVersion
  size := ⟨asU16 g.rows, asU16 g.cols, asU16_lt g.rows, asU16_lt g.cols⟩
  altScreen := altScreen
  defaults := defaults
  cursor :=
    { row := asU16 cursor.row
      col := (masks.cursorRedactionCol (asU16 cursor.row) (asU16 cursor.col)).getD
        (asU16 cursor.col)
      visible := cursor.visible
      shape := cursor.shape }
  paletteOverridden := paletteOverridden
  rows := (List.range g.rows).map fun r => ⟨asU16 r, buildRowRuns g r g.cols masks⟩

end FrameEnvelope

def makeCell (ch : Char) (grapheme : Option (List Char)) (width : Nat) (cellStyle : CellStyle)
    (style : CapStyle) : Cell :=
  ⟨ch, width, cellStyle, style.toExtended grapheme⟩

/-- What a masked cell decodes to. -/
def maskPlaceholder : Cell := ⟨Char.ofNat 0x25AE, 1, .default, none⟩

def CapStyle.cellStyle (style : CapStyle) : CellStyle :=
  ⟨colorFromOpt style.fg, colorFromOpt style.bg, style.toFlags⟩

/-- Write the scalars of a string run from column `c`. -/
def decodeSimple (style : CapStyle) (cols : Nat) : List Char → Nat → List Cell → List Cell
  | [], _, line => line
  | ch :: text, c, line =>
    if cols ≤ c then line
    else
      decodeSimple style cols text (c + 1) (line.set c (makeCell ch none 1 style.cellStyle style))

/-- The cell of an entry that is not empty. -/
def entryCell (style : CapStyle) (entry : List Char) (width : Nat) : Cell :=
  makeCell (entry.headD ' ') (if 1 < entry.length then some entry else none) width
    style.cellStyle style

/-- Write the entries of an array run from column `c`. -/
def decodeComplex (style : CapStyle) (cols : Nat) :
    List (List Char) → Nat → List Cell → List Cell
  | [], _, line => line
  | [s], c, line =>
    if cols ≤ c then line
    else if s.isEmpty then line.set c .empty
    else line.set c (entryCell style s 1)
  | s :: n :: rest, c, line =>
    if cols ≤ c then line
    else if s.isEmpty then decodeComplex style cols (n :: rest) (c + 1) (line.set c .empty)
    else if n.isEmpty then
      let line := line.set c (entryCell style s 2)
      let line := if c + 1 < cols then line.set (c + 1) .wideContinuation else line
      decodeComplex style cols rest (c + 2) line
    else decodeComplex style cols (n :: rest) (c + 1) (line.set c (entryCell style s 1))

def decodeRunInto (run : Run) (line : List Cell) (cols : Nat) : List Cell :=
  match run with
  | .mask col cells =>
    let start := min col cols
    let stop := min (start + cells) cols
    line.take start ++ List.replicate (stop - start) maskPlaceholder ++ line.drop stop
  | .cells col (.simple text) style => decodeSimple style cols text col line
  | .cells col (.complex entries) style => decodeComplex style cols entries col line

namespace FrameEnvelope

/-- Draw a row of the envelope, if it has a place. -/
def drawRow (cols : Nat) (grid : List (List Cell)) (row : RowRepr) : List (List Cell) :=
  grid.modify row.row fun line => row.runs.foldl (fun line run => decodeRunInto run line cols) line

/-- The cells this envelope describes, row by row. -/
def toCells (env : FrameEnvelope) : List (List Cell) :=
  env.rows.foldl (drawRow env.size.cols)
    (List.replicate env.size.rows (List.replicate env.size.cols .empty))

/-- Write a list of cells over the front of a row. -/
def paintRow (cells : List Cell) (row : Row) : Checked (Row × Unit) := do
  let painted ← cells.zipIdx.foldlM (fun line cell => assign line cell.2 cell.1) row.cells
  pure ({ row with cells := painted }, ())

/-- A live grid with the cells of this envelope. -/
def toGrid (env : FrameEnvelope) : Checked Grid :=
  let cells := env.toCells
  let cols := (cells.head?.map List.length).getD 0
  cells.zipIdx.foldlM (fun g row => do
      let (g, _) ← g.editRowMarked row.2 (paintRow row.1)
      pure g)
    (Grid.new cells.length cols .default)

end FrameEnvelope

/-- What is wrong with an envelope, with the values its message names. -/
inductive CaptureDetail where
  | rowCount (found expected : Nat)
  | cursorRowPast (row rows : Nat)
  | cursorColPast (col cols : Nat)
  | rowsOutOfOrder (index row : Nat)
  | maskEmpty
  | overlaps (col expected : Nat)
  | mustCoalesce (col : Nat)
  | overflows (col : Nat)
  | pastWidth (col span cols : Nat)
  | emptyString (col : Nat)
  | notSimple (col : Nat) (ch : Char) (width : Nat)
  | tooManyChars (col count : Nat)
  | emptyArray (col : Nat)
  | orphan (col index : Nat)
  | notWide (entry : List Char) (col width : Nat)
  | doubleEmpty (entry : List Char) (col : Nat)
  | zeroWidth (entry : List Char) (col : Nat)
  | missingContinuation (entry : List Char) (col : Nat)
  | allSimple (col : Nat)
  | viewTooLarge (rows cols : Nat)
deriving DecidableEq, Repr

inductive CaptureError where
  | unsupportedSchema (found expected : Nat)
  | nonCanonical (row : Nat) (detail : CaptureDetail)
deriving DecidableEq, Repr

/-- Runs that must merge when they are adjacent share a key. -/
inductive RunKey where
  | mask
  | style (style : CapStyle)
deriving DecidableEq, Repr

section Validate

variable [Crates]

/-- Display width of a scalar, zero for one that is not a glyph. -/
def charWidth (ch : Char) : Nat := (Crates.width ch).getD 0

/-- Display width of the base scalar of an entry. -/
def graphemeDisplayWidth (entry : List Char) : Nat := (entry.head?.map charWidth).getD 0

/-- Walk the entries of an array run: the span of the rest, and whether it is all simple. -/
def validateEntries (row col : Nat) :
    List (List Char) → Nat → Nat → Bool → Except CaptureError (Nat × Bool)
  | [], _, span, allSimple => .ok (span, allSimple)
  | [s], i, span, allSimple =>
    if s.isEmpty then .error (.nonCanonical row (.orphan col i))
    else if s.length = 1 then
      if graphemeDisplayWidth s = 0 then .error (.nonCanonical row (.zeroWidth s col))
      else if graphemeDisplayWidth s = 2 then
        .error (.nonCanonical row (.missingContinuation s col))
      else .ok (min (span + 1) (2 ^ 16 - 1), allSimple)
    else .ok (min (span + 1) (2 ^ 16 - 1), false)
  | s :: n :: rest, i, span, allSimple =>
    if s.isEmpty then .error (.nonCanonical row (.orphan col i))
    else if n.isEmpty then
      if s.length = 1 ∧ graphemeDisplayWidth s ≠ 2 then
        .error (.nonCanonical row (.notWide s col (graphemeDisplayWidth s)))
      else if rest.head?.any List.isEmpty then .error (.nonCanonical row (.doubleEmpty s col))
      else validateEntries row col rest (i + 2) (min (span + 2) (2 ^ 16 - 1)) false
    else if s.length = 1 then
      if graphemeDisplayWidth s = 0 then .error (.nonCanonical row (.zeroWidth s col))
      else if graphemeDisplayWidth s = 2 then
        .error (.nonCanonical row (.missingContinuation s col))
      else validateEntries row col (n :: rest) (i + 1) (min (span + 1) (2 ^ 16 - 1)) allSimple
    else validateEntries row col (n :: rest) (i + 1) (min (span + 1) (2 ^ 16 - 1)) false

/-- The columns a run of cells takes. -/
def validateCellsRun (row col : Nat) (content : RunContent) : Except CaptureError Nat :=
  match content with
  | .simple text =>
    if text.isEmpty then .error (.nonCanonical row (.emptyString col))
    else
      match text.find? fun ch => charWidth ch != 1 with
      | some ch => .error (.nonCanonical row (.notSimple col ch (charWidth ch)))
      | none =>
        if 2 ^ 16 - 1 < text.length then
          .error (.nonCanonical row (.tooManyChars col text.length))
        else .ok (asU16 text.length)
  | .complex entries =>
    if entries.isEmpty then .error (.nonCanonical row (.emptyArray col))
    else do
      let (span, allSimple) ← validateEntries row col entries 0 0 true
      if allSimple then .error (.nonCanonical row (.allSimple col)) else .ok span

/-- Where a run starts, how many columns it takes, and its key. -/
def validateRun (row : Nat) (run : Run) : Except CaptureError (Nat × Nat × RunKey) :=
  match run with
  | .mask col cells =>
    if cells = 0 then .error (.nonCanonical row .maskEmpty) else .ok (col, cells, .mask)
  | .cells col content style => do
    let span ← validateCellsRun row col content
    .ok (col, span, .style style)

/-- The runs of a row are in order, apart, merged and within the width. -/
def validateRuns (row cols : Nat) :
    List Run → Nat → Option (Nat × RunKey) → Except CaptureError Unit
  | [], _, _ => .ok ()
  | run :: runs, expectedMin, prev => do
    let (col, span, key) ← validateRun row run
    if col < expectedMin then .error (.nonCanonical row (.overlaps col expectedMin))
    else if prev = some (col, key) then .error (.nonCanonical row (.mustCoalesce col))
    else if 2 ^ 16 ≤ col + span then .error (.nonCanonical row (.overflows col))
    else if cols < col + span then .error (.nonCanonical row (.pastWidth col span cols))
    else validateRuns row cols runs (col + span) (some (col + span, key))

def validateRow (row : RowRepr) (cols : Nat) : Except CaptureError Unit :=
  validateRuns row.row cols row.runs 0 none

/-- The rows, numbered from `i`. -/
def validateRows (cols : Nat) : Nat → List RowRepr → Except CaptureError Unit
  | _, [] => .ok ()
  | i, row :: rows =>
    if row.row ≠ i then .error (.nonCanonical row.row (.rowsOutOfOrder i row.row))
    else do
      validateRow row cols
      validateRows cols (i + 1) rows

/-- The envelope is the one encoding of its frame. -/
def FrameEnvelope.validate (env : FrameEnvelope) : Except CaptureError Unit :=
  if env.schema ≠ schemaVersion then
    .error (.unsupportedSchema env.schema schemaVersion)
  else if env.rows.length ≠ env.size.rows then
    .error (.nonCanonical 0 (.rowCount env.rows.length env.size.rows))
  else if env.size.rows ≤ env.cursor.row then
    .error (.nonCanonical 0 (.cursorRowPast env.cursor.row env.size.rows))
  else if env.size.cols < env.cursor.col then
    .error (.nonCanonical 0 (.cursorColPast env.cursor.col env.size.cols))
  else validateRows env.size.cols 0 env.rows

end Validate

end Shux.Vt
