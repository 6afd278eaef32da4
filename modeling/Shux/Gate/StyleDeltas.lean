/-
# Style deltas

A failing frame is reported with what changed in its colours and attributes. The styles of a row
are read off its runs, column by column, a column of no run being a blank in the default style.
The columns of the expected and the actual row are then walked together. A stretch of columns
with one pair of styles that differ is one entry, up to a cap, and every stretch is counted.

The walk is compared with the longest stretches of one pair of styles in the decoded frames.
-/

import Shux.Lib.FinMap
import Shux.Lib.Stretches
import Shux.Gate.Vocab
import Shux.Vt.ShownStyle

namespace Shux.Gate

open Vt

/-- Names of the first sixteen colours. -/
def basicColorNames : List Str :=
  ["black".toList, "red".toList, "green".toList, "yellow".toList, "blue".toList, "magenta".toList,
    "cyan".toList, "white".toList, "bright_black".toList, "bright_red".toList,
    "bright_green".toList, "bright_yellow".toList, "bright_blue".toList, "bright_magenta".toList,
    "bright_cyan".toList, "bright_white".toList]

/-- A byte in two hexadecimal digits. -/
def hexByte (b : UInt8) : Str := [Nat.digitChar (b.toNat / 16), Nat.digitChar (b.toNat % 16)]

def colorName : CapColor → Str
  | .idx i =>
    match basicColorNames[i.toNat]? with
    | some name => name
    | none => "idx(".toList ++ Nat.toDigits 10 i.toNat ++ [')']
  | .rgb r g b => '#' :: (hexByte r ++ hexByte g ++ hexByte b)

/-- The attributes that have a word. -/
def styleFlags (st : CapStyle) : List (Bool × Str) :=
  [(st.bold, "bold".toList), (st.dim, "dim".toList), (st.italic, "italic".toList),
    (st.underline, "underline".toList), (st.blink, "blink".toList), (st.inverse, "inverse".toList),
    (st.hidden, "hidden".toList)]

def styleParts (st : CapStyle) : List Str :=
  (st.fg.map fun c => "fg=".toList ++ colorName c).toList ++
    (st.bg.map fun c => "bg=".toList ++ colorName c).toList ++
    ((styleFlags st).filter (·.1)).map (·.2)

/-- A terse descriptor of a style. -/
def describeStyle (st : CapStyle) : Str :=
  if (styleParts st).isEmpty then "default".toList else [' '].intercalate (styleParts st)

/-- A run gives its style to every column it covers; a masked one gives none. -/
def insertRun (out : FinMap Nat CapStyle) (run : Run) : FinMap Nat CapStyle :=
  match run with
  | .cells col content style =>
    let width := match content with
      | .simple text => text.length
      | .complex entries => entries.length
    (List.range width).foldl (fun out i => out.insert (min (col + asU16 i) (2 ^ 16 - 1)) style) out
  | .mask _ _ => out

def rowStyles (row : RowRepr) : FinMap Nat CapStyle := row.runs.foldl insertRun ∅

structure StyleDelta where
  row : Nat
  col : Nat
  colEnd : Nat
  expected : Str
  actual : Str
  deriving DecidableEq, Repr

def maxStyleDeltas : Nat := 16

/-- What the walk carries: the entries and the count, whether the stretch at hand was entered,
and the last column that differed with its styles. -/
structure StyleWalk where
  out : List StyleDelta
  total : Nat
  emittingCurrent : Bool
  prev : Option (Nat × CapStyle × CapStyle)
  deriving DecidableEq, Repr

/-- The style of a column, a column of no run being a blank. -/
def styleOf (styles : FinMap Nat CapStyle) (col : Nat) : CapStyle := (styles.get col).getD .default

/-- Move the end of the last entry. -/
def extendLast (colEnd : Nat) (out : List StyleDelta) : List StyleDelta :=
  out.dropLast ++ (out.getLast?.map fun last => { last with colEnd }).toList

/-- The last column that differed is the one before, with the same styles. -/
def continuesRun (prev : Option (Nat × CapStyle × CapStyle)) (col : Nat) (e a : CapStyle) : Bool :=
  match prev with
  | some (pcol, pe, pa) => pcol + 1 == col && pe == e && pa == a
  | none => false

def stepColumn (row : Nat) (eStyles aStyles : FinMap Nat CapStyle) (w : StyleWalk) (col : Nat) :
    StyleWalk :=
  let e := styleOf eStyles col
  let a := styleOf aStyles col
  if e = a then { w with prev := none }
  else
    let continues := continuesRun w.prev col e a
    let w := { w with prev := some (col, e, a) }
    if continues then
      if w.emittingCurrent then
        { w with out := extendLast (min (col + 1) (2 ^ 16 - 1)) w.out }
      else w
    else
      let emitting := decide (w.out.length < maxStyleDeltas)
      { w with
        total := min (w.total + 1) (2 ^ 32 - 1)
        emittingCurrent := emitting
        out := if emitting then
            w.out ++ [⟨row, col, min (col + 1) (2 ^ 16 - 1), describeStyle e, describeStyle a⟩]
          else w.out }

/-- The columns either side has a style for, in order. -/
def unionColumns (eStyles aStyles : FinMap Nat CapStyle) : List Nat :=
  (eStyles.keys ++ aStyles.keys).dedup.insertionSort (· ≤ ·)

/-- The actual row of a number; of several, the last one is kept. -/
def actualRow (actual : FrameEnvelope) (row : Nat) : Option RowRepr :=
  actual.rows.reverse.find? fun r => r.row == row

def stepRow (actual : FrameEnvelope) (w : StyleWalk) (erow : RowRepr) : StyleWalk :=
  match actualRow actual erow.row with
  | none => w
  | some arow =>
    (unionColumns (rowStyles erow) (rowStyles arow)).foldl
      (stepColumn erow.row (rowStyles erow) (rowStyles arow)) { w with prev := none }

/-- The style changes between two frames, in order, and how many there are. -/
def styleDeltas (expected actual : FrameEnvelope) : List StyleDelta × Nat :=
  let w := expected.rows.foldl (stepRow actual) ⟨[], 0, false, none⟩
  (w.out, w.total)

end Shux.Gate
