/-
# Cells of the virtual terminal

A cell holds one scalar with its display width and style, and in rare storage of its
own the rest of a grapheme cluster, a hyperlink and the underline attributes. A wide
character takes two columns: a cell of width two, then a continuation of width zero.
-/

import Mathlib.Tactic

namespace Shux.Vt

/-- Maximum Unicode scalars retained in one cell's grapheme payload. -/
def maxGraphemeScalars : Nat := 32

/-- Compact cell flags packed into a single byte. -/
structure CellFlags where
  bits : UInt8
deriving DecidableEq, Repr

namespace CellFlags

def none : CellFlags := ⟨0⟩

def bold : UInt8 := 0b00000001
def dim : UInt8 := 0b00000010
def italic : UInt8 := 0b00000100
def underline : UInt8 := 0b00001000
def blink : UInt8 := 0b00010000
def inverse : UInt8 := 0b00100000
def hidden : UInt8 := 0b01000000
def strikethrough : UInt8 := 0b10000000

def contains (flags : CellFlags) (flag : UInt8) : Bool := flags.bits &&& flag != 0

def set (flags : CellFlags) (flag : UInt8) : CellFlags := ⟨flags.bits ||| flag⟩

def unset (flags : CellFlags) (flag : UInt8) : CellFlags := ⟨flags.bits &&& ~~~flag⟩

end CellFlags

/-- Terminal color representation. -/
inductive Color where
  | default
  | indexed (index : UInt8)
  | rgb (r g b : UInt8)
deriving DecidableEq, Repr

/-- Pixel color. -/
structure Rgb where
  r : UInt8
  g : UInt8
  b : UInt8
deriving DecidableEq, Repr

/-- Dynamic terminal default colors. `none` is the fallback of the embedding terminal. -/
structure TerminalDefaultColors where
  fg : Option Rgb
  bg : Option Rgb
  cursor : Option Rgb
deriving DecidableEq, Repr

def TerminalDefaultColors.default : TerminalDefaultColors := ⟨none, none, none⟩

/-- Cell style attributes. -/
structure CellStyle where
  fg : Color
  bg : Color
  flags : CellFlags
deriving DecidableEq, Repr

def CellStyle.default : CellStyle := ⟨.default, .default, .none⟩

inductive UnderlineStyle where
  | none
  | single
  | double
  | curly
  | dotted
  | dashed
deriving DecidableEq, Repr

/-- Attributes rare enough to be stored apart from the cell. The grapheme payload is the
full display text of a cell of several scalars. -/
structure ExtendedAttrs where
  grapheme : Option (List Char)
  hyperlink : Option String
  underlineColor : Option Color
  underlineStyle : UnderlineStyle
deriving DecidableEq, Repr

def ExtendedAttrs.default : ExtendedAttrs := ⟨none, none, none, .none⟩

/-- Drop rare storage in which every field has returned to its default. -/
def pruneDefaultExtended (extended : Option ExtendedAttrs) : Option ExtendedAttrs :=
  if extended = some .default then none else extended

/-- A single terminal cell. -/
structure Cell where
  ch : Char
  width : Nat
  style : CellStyle
  extended : Option ExtendedAttrs
deriving DecidableEq, Repr

namespace Cell

/-- A space in the default style. -/
def empty : Cell := ⟨' ', 1, .default, none⟩

/-- One cell of the screen-alignment pattern. -/
def alignment : Cell := ⟨'E', 1, .default, none⟩

/-- The placeholder in the second column of a wide character. -/
def wideContinuation : Cell := ⟨' ', 0, .default, none⟩

def isWideContinuation (cell : Cell) : Bool := cell.width == 0

def isWide (cell : Cell) : Bool := cell.width == 2

/-- Rare grapheme payload, if the cell stores text of several scalars. -/
def grapheme (cell : Cell) : Option (List Char) := cell.extended.bind (·.grapheme)

/-- Full display text of a cell. -/
def displayText (cell : Cell) : List Char := cell.grapheme.getD [cell.ch]

/-- Set the rare grapheme payload. A payload equal to the scalar of the cell is pruned. -/
def setGraphemePayload (cell : Cell) (text : List Char) : Cell :=
  if text = [cell.ch] then
    { cell with
      extended := pruneDefaultExtended (cell.extended.map fun attrs =>
        { attrs with grapheme := none }) }
  else
    { cell with extended := some { cell.extended.getD .default with grapheme := some text } }

/-- Append one scalar to the grapheme payload; `none` when the payload is full and the
scalar is rejected. -/
def appendGraphemeScalar (cell : Cell) (ch : Char) : Option Cell :=
  match cell.grapheme with
  | some existing =>
    if maxGraphemeScalars ≤ existing.length then none
    else
      some { cell with
        extended := cell.extended.map fun attrs =>
          { attrs with grapheme := some (existing ++ [ch]) } }
  | none => some (cell.setGraphemePayload [cell.ch, ch])

/-- Reset a cell to empty with the given background color. -/
def reset (cell : Cell) (bg : Color) : Cell :=
  { cell with ch := ' ', width := 1, style := ⟨.default, bg, .none⟩, extended := none }

end Cell

end Shux.Vt
