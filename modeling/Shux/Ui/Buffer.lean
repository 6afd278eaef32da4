/-
# Cells of a frame

What the compositors write is a grid of cells with the colours of the terminal library. Cells of a
pane's grid are converted cell by cell.
-/

import Shux.Vt.Cell

namespace Shux.Ui

/-- Colors of the terminal library. -/
inductive CtColor where
  | reset
  | black
  | darkGrey
  | red
  | darkRed
  | green
  | darkGreen
  | yellow
  | darkYellow
  | blue
  | darkBlue
  | magenta
  | darkMagenta
  | cyan
  | darkCyan
  | white
  | grey
  | rgb (r g b : UInt8)
  | ansiValue (n : UInt8)
  deriving DecidableEq, Repr

def vtColorToCrossterm : Vt.Color → Option CtColor
  | .default => none
  | .indexed n => some (.ansiValue n)
  | .rgb r g b => some (.rgb r g b)

/-- The same, with the default resolved through a dynamic color of the terminal. -/
def vtColorToCrosstermWithDefault (color : Vt.Color) (default : Option Vt.Rgb) : Option CtColor :=
  match color with
  | .default => default.map fun rgb => .rgb rgb.r rgb.g rgb.b
  | other => vtColorToCrossterm other

structure RenderAttrs where
  bold : Bool
  dim : Bool
  italic : Bool
  underline : Bool
  blink : Bool
  reverse : Bool
  hidden : Bool
  strikethrough : Bool
  deriving DecidableEq, Repr

def RenderAttrs.default : RenderAttrs := ⟨false, false, false, false, false, false, false, false⟩

/-- A single cell in the render buffer. -/
structure RenderCell where
  ch : Char
  fg : Option CtColor
  bg : Option CtColor
  attrs : RenderAttrs
  extended : Option Vt.ExtendedAttrs
  /-- The trailing half of a wide character. -/
  wideContinuation : Bool
  deriving DecidableEq, Repr

namespace RenderCell

def default : RenderCell := ⟨' ', none, none, .default, none, false⟩

/-- Convert a cell of a pane's grid, with the default colors of its terminal. -/
def fromVtCellWithDefaults (cell : Vt.Cell) (defaults : Vt.TerminalDefaultColors) : RenderCell where
  ch := cell.ch
  fg := vtColorToCrosstermWithDefault cell.style.fg defaults.fg
  bg := vtColorToCrosstermWithDefault cell.style.bg defaults.bg
  attrs := {
    bold := cell.style.flags.contains Vt.CellFlags.bold
    dim := cell.style.flags.contains Vt.CellFlags.dim
    italic := cell.style.flags.contains Vt.CellFlags.italic
    underline := cell.style.flags.contains Vt.CellFlags.underline
    blink := cell.style.flags.contains Vt.CellFlags.blink
    reverse := cell.style.flags.contains Vt.CellFlags.inverse
    hidden := cell.style.flags.contains Vt.CellFlags.hidden
    strikethrough := cell.style.flags.contains Vt.CellFlags.strikethrough }
  extended := cell.extended
  wideContinuation := cell.isWideContinuation

end RenderCell

/-- A grid of render cells, row by row. -/
structure FrameBuffer where
  width : Nat
  height : Nat
  current : List RenderCell
  size : current.length = height * width

namespace FrameBuffer

def new (width height : Nat) : FrameBuffer :=
  ⟨width, height, List.replicate (height * width) .default, List.length_replicate⟩

/-- Write a cell; outside the buffer nothing happens. -/
def setCell (b : FrameBuffer) (col row : Nat) (cell : RenderCell) : FrameBuffer :=
  if col < b.width ∧ row < b.height then
    { b with
      current := b.current.set (row * b.width + col) cell
      size := List.length_set.trans b.size }
  else b

/-- What a cell of the buffer holds. -/
def cell (b : FrameBuffer) (col row : Nat) : Option RenderCell :=
  if col < b.width ∧ row < b.height then b.current[row * b.width + col]? else none

variable (b : FrameBuffer) (col row : Nat) (x : RenderCell)

@[simp] theorem width_setCell : (b.setCell col row x).width = b.width := by
  unfold setCell
  split_ifs
  · rfl
  · rfl

@[simp] theorem height_setCell : (b.setCell col row x).height = b.height := by
  unfold setCell
  split_ifs
  · rfl
  · rfl

variable {b} {col' row' : Nat}

/-- Cells have places of their own. -/
theorem index_inj {width : Nat} (hcol : col < width) (hcol' : col' < width)
    (h : row * width + col = row' * width + col') : col = col' ∧ row = row' := by
  have hpos : 0 < width := by omega
  have hrow := congrArg (· / width) h
  have hmod := congrArg (· % width) h
  rw [Nat.mul_comm row, Nat.mul_comm row', Nat.mul_add_div hpos, Nat.mul_add_div hpos,
    Nat.div_eq_of_lt hcol, Nat.div_eq_of_lt hcol'] at hrow
  rw [Nat.mul_comm row, Nat.mul_comm row', Nat.mul_add_mod, Nat.mul_add_mod,
    Nat.mod_eq_of_lt hcol, Nat.mod_eq_of_lt hcol'] at hmod
  exact ⟨hmod, hrow⟩

theorem index_lt {width height : Nat} (hcol : col < width) (hrow : row < height) :
    row * width + col < height * width := by
  have hrows : (row + 1) * width ≤ height * width := Nat.mul_le_mul_right width hrow
  rw [Nat.succ_mul] at hrows
  omega

theorem cell_eq (hcol : col' < b.width) (hrow : row' < b.height) :
    b.cell col' row' = b.current[row' * b.width + col']? := if_pos ⟨hcol, hrow⟩

/-- A cell that was set, and all others. -/
theorem cell_setCell (hcol : col' < b.width) (hrow : row' < b.height) :
    (b.setCell col row x).cell col' row' =
      if col' = col ∧ row' = row then some x else b.cell col' row' := by
  have hcol' : col' < (b.setCell col row x).width := by rwa [width_setCell]
  have hrow' : row' < (b.setCell col row x).height := by rwa [height_setCell]
  rw [cell_eq hcol' hrow', cell_eq hcol hrow, width_setCell]
  by_cases hsame : col' = col ∧ row' = row
  · obtain ⟨rfl, rfl⟩ := hsame
    have hlt : row' * b.width + col' < b.current.length := by
      rw [b.size]
      exact index_lt col' row' hcol hrow
    rw [if_pos ⟨rfl, rfl⟩]
    unfold setCell
    rw [if_pos ⟨hcol, hrow⟩]
    exact List.getElem?_set_self hlt
  · rw [if_neg hsame]
    unfold setCell
    split_ifs with hin
    · refine List.getElem?_set_ne fun heq => hsame ?_
      obtain ⟨hc, hr⟩ := index_inj col row hin.1 hcol heq
      exact ⟨hc.symm, hr.symm⟩
    · rfl

end FrameBuffer

end Shux.Ui
