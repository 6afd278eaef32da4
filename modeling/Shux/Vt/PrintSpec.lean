/-
# Printing keeps the screen in order

A character is only written where it fits: a narrow one anywhere inside, a wide one with
a column to its right, after a wrap if need be. A scalar that joins a character finds it
whole, because the cell under construction is never a continuation.
-/

import Shux.Vt.Advance

namespace Shux.Vt.Screen.Ok

open Checked Handler

variable {h : Handler}
variable {cell : Cell} {width : Nat}

section

variable (hs : h.toScreen.Ok)
include hs

theorem wrapToNextLine : Runs h.wrapToNextLine fun h' => Answers h h' ∧ h'.cursor.col = 0 := by
  have hclear := hs.clearActiveGraphemeCell
  have hcol := hclear.trans (hclear.ok.setCol hs.cols)
  refine .bind (hcol.ok.onGrid ?_) ?_
  · apply hcol.ok.grid.modifyRowMarked hcol.ok.row
    intro old hold
    exact .pure ⟨hold.length, hold.paired⟩
  rintro _ ⟨hwrapped, grid, rfl⟩
  have hadv := hcol.trans hwrapped
  apply Runs.ite
  · intro _
    apply (hadv.ok.onGrid (hadv.ok.grid.scrollUpN _ _ 1)).mono
    rintro _ ⟨hscroll, grid', rfl⟩
    exact ⟨hadv.trans hscroll, rfl⟩
  · intro _
    apply Runs.ite
    · exact fun hlt => .pure ⟨hadv.trans (hadv.ok.setCursor hlt hadv.ok.col), rfl⟩
    · exact fun _ => .pure ⟨hadv, rfl⟩

theorem resolvePendingWrap : Runs h.resolvePendingWrap (Answers h) := by
  apply Runs.ite
  · intro _
    apply Runs.ite
    · exact fun _ => hs.wrapToNextLine.mono fun _ hout => hout.1
    · exact fun _ => .pure (hs.setCol hs.lastCol)
  · exact fun _ => .pure hs.advances_refl

/-- The cursor is never out of bounds when a character starts. -/
theorem pullCursorIn_eq : h.pullCursorIn = h := by
  have hrow := hs.row
  have hcol := hs.col
  unfold pullCursorIn
  dsimp only
  rw [if_neg (show ¬h.grid.cols ≤ h.cursor.col by omega), if_neg (by omega)]

theorem blankUnderCursor :
    Runs h.blankUnderCursor fun h' => Answers h h' ∧ ∃ grid, h' = h.setGrid grid := by
  apply hs.onGrid
  apply hs.grid.modifyRowMarked hs.row
  intro old hold
  apply Runs.bind (hold.clearWidePairAround h.cursor.col h.cursor.style.bg)
  rintro row ⟨hsound, hcleared⟩
  exact hsound.setCell hs.col (hcleared.width_self hold.paired.regular) rfl

theorem endGlyph : Answers h h.endGlyph := by
  have hcursor : Answers h (h.setCursor { h.cursor with autoWrapPending := false }) :=
    hs.setCursor hs.row hs.col
  exact hcursor.trans hcursor.ok.clearActiveGraphemeCell

theorem advanceCursor (width : Nat) : Answers h (h.advanceCursor width) := by
  unfold Handler.advanceCursor
  split
  · exact hs.setCursor hs.row hs.lastCol
  · refine hs.setCursor hs.row ?_
    show h.cursor.col + width < h.grid.cols
    omega

end

/-- A character that fits at the cursor. -/
def Fits (h : Handler) (width : Nat) : Prop :=
  width = 1 ∨ width = 2 ∧ h.cursor.col + 1 < h.grid.cols

theorem putGlyph (hs : h.toScreen.Ok) (ch : Char) (hfits : Fits h width) :
    Runs (h.putGlyph ch width) (Answers h) := by
  have hinsert : Runs (if h.modes.insertMode then
      h.onGrid fun g => g.insertChars h.cursor.row h.cursor.col width
      else pure h) fun h' => Answers h h' ∧ Fits h' width := by
    apply Runs.ite
    · intro _
      have hpos : 0 < width := by rcases hfits with rfl | ⟨rfl, -⟩ <;> decide
      apply (hs.onGrid (hs.grid.insertChars hs.row hs.col hpos)).mono
      rintro _ ⟨hadv, grid, rfl⟩
      have hcols : grid.cols = h.grid.cols := hadv.evolves.cols
      refine ⟨hadv, hfits.imp_right fun hwide => ⟨hwide.1, ?_⟩⟩
      show h.cursor.col + 1 < grid.cols
      exact hcols.symm ▸ hwide.2
    · exact fun _ => .pure ⟨hs.advances_refl, hfits⟩
  apply Runs.bind hinsert
  rintro h₁ ⟨hadv₁, hfits₁⟩
  have hs₁ := hadv₁.ok
  refine .bind (hs₁.onGrid ?_) ?_
  · apply hs₁.grid.modifyRowMarked hs₁.row
    intro old hold
    apply hold.writeGlyph hs₁.col
    exact hfits₁
  rintro _ ⟨hadv₂, grid, rfl⟩
  have hactive := hadv₂.ok.setActiveGraphemeCell hadv₂.ok.row hadv₂.ok.col
  exact .pure (hadv₁.trans (hadv₂.trans (hactive.trans (hactive.ok.advanceCursor width))))

theorem startGlyph (hs : h.toScreen.Ok) (ch : Char) (hwidth : width = 1 ∨ width = 2) :
    Runs (h.startGlyph ch width) (Answers h) := by
  apply Runs.bind hs.resolvePendingWrap
  intro h₁ hadv₁
  have hs₁ := hadv₁.ok
  rw [hs₁.pullCursorIn_eq]
  apply Runs.ite
  · intro _
    apply Runs.bind hs₁.blankUnderCursor
    rintro _ ⟨hblank, -⟩
    exact .pure (hadv₁.trans (hblank.trans hblank.ok.endGlyph))
  · intro hcols
    apply Runs.ite
    · rintro ⟨hwide, -⟩
      apply Runs.bind hs₁.blankUnderCursor
      rintro h₂ ⟨hblank, -⟩
      have hadv₂ := hadv₁.trans hblank
      apply Runs.ite
      · intro _
        apply Runs.bind hblank.ok.wrapToNextLine
        rintro h₃ ⟨hwrap, hzero⟩
        have hcols₃ : h₃.grid.cols = h₁.grid.cols := (hblank.trans hwrap).evolves.cols
        have hfits : Fits h₃ width := .inr ⟨hwide, by omega⟩
        exact (hadv₂.trans hwrap).next (hwrap.ok.putGlyph ch hfits)
      · exact fun _ => .pure (hadv₂.trans hblank.ok.endGlyph)
    · intro hedge
      have hfits : Fits h₁ width := by
        rcases hwidth with hone | htwo
        · exact .inl hone
        · exact .inr ⟨htwo, by omega⟩
      exact hadv₁.next (hs₁.putGlyph ch hfits)

/-- A position inside the grid where a cell shows a character. -/
def GlyphAt (h : Handler) (row col : Nat) : Prop :=
  row < h.grid.rows ∧ col < h.grid.cols ∧ ∃ line cell,
    h.grid.raw[h.grid.scrollbackLen + row]? = some line ∧ line.cells[col]? = some cell ∧
    cell.isGlyph = true

section

variable (hs : h.toScreen.Ok)
include hs

theorem visibleRow {row : Nat} (hrow : row < h.grid.rows) :
    Runs (h.grid.visibleRow row) fun line =>
      h.grid.raw[h.grid.scrollbackLen + row]? = some line ∧ line.Sound h.grid.cols := by
  have hsb := hs.grid.scrollbackLen_add
  have hlt : h.grid.scrollbackLen + row < h.grid.raw.length := by omega
  apply (Runs.index hlt).mono
  intro line hline
  exact ⟨hline, hs.grid.sound line (List.mem_of_getElem? hline)⟩

theorem glyphAt_of_any {row col : Nat} {line : Row} (hrow : row < h.grid.rows)
    (hline : h.grid.raw[h.grid.scrollbackLen + row]? = some line)
    (hglyph : (line.get col).any Cell.isGlyph = true) : GlyphAt h row col := by
  cases hcell : line.get col with
  | none => rw [hcell] at hglyph; cases hglyph
  | some cell =>
    rw [hcell] at hglyph
    have hlen := (hs.grid.sound line (List.mem_of_getElem? hline)).length
    have hlt : col < line.cells.length := (List.getElem?_eq_some_iff.mp hcell).1
    exact ⟨hrow, by omega, line, cell, hline, hcell, hglyph⟩

theorem activeGraphemePosition :
    Runs h.activeGraphemePosition fun position => ∀ row col, position = some (row, col) →
      GlyphAt h row col := by
  unfold Handler.activeGraphemePosition
  split
  · exact .pure fun row col heq => by cases heq
  · next row col hactive =>
    have hin := hs.active row col hactive
    apply Runs.bind (hs.visibleRow hin.1)
    rintro line ⟨hline, -⟩
    apply Runs.pure
    intro row' col' heq
    split at heq
    · next hglyph =>
      cases heq
      exact hs.glyphAt_of_any hin.1 hline hglyph
    · cases heq

theorem precedingCellPosition :
    Runs h.precedingCellPosition fun position => ∀ row col, position = some (row, col) →
      row < h.grid.rows := by
  unfold Handler.precedingCellPosition
  dsimp only
  split
  · exact .pure fun row col heq => by cases heq
  · apply Runs.bind (hs.visibleRow hs.row)
    rintro line -
    apply Runs.pure
    intro row col heq
    obtain ⟨col', -, hmap⟩ := Option.bind_eq_some_iff.mp heq
    obtain ⟨cell, -, heq⟩ := Option.map_eq_some_iff.mp hmap
    cases heq
    exact hs.row

theorem joinPosition :
    Runs h.joinPosition fun position => ∀ row col, position = some (row, col) →
      row < h.grid.rows := by
  apply Runs.bind hs.activeGraphemePosition
  intro active hactive
  cases active with
  | none => exact hs.precedingCellPosition
  | some position =>
    apply Runs.pure
    rintro row col heq
    exact (hactive row col heq).1

end

/-- The character at a glyph is whole: its cell is no continuation. -/
theorem width_of_glyph {cells : List Cell} {col : Nat}
    (hcell : cells[col]? = some cell) (hglyph : cell.isGlyph = true) :
    Row.widthAt cells col ≠ 0 := by
  rw [Row.widthAt_of_some hcell]
  intro hzero
  rw [Cell.isGlyph, Cell.isWideContinuation, hzero] at hglyph
  cases hglyph

theorem appendZeroWidthScalar (hs : h.toScreen.Ok) (ch : Char) :
    Runs (h.appendZeroWidthScalar ch) (Answers h) := by
  apply Runs.bind hs.joinPosition
  intro position hposition
  cases position with
  | none => exact .pure hs.advances_refl
  | some position =>
    obtain ⟨row, col⟩ := position
    have hrow := hposition row col rfl
    apply Runs.ite
    · exact fun _ => .pure hs.advances_refl
    · intro hin
      apply Runs.bind (hs.visibleRow hrow)
      rintro line ⟨hline, -⟩
      apply Runs.ite
      · intro hglyph
        obtain ⟨-, hcol, line', cell, hline', hcell, hglyph⟩ := hs.glyphAt_of_any hrow hline hglyph
        refine .bind (hs.grid.editRowMarkedAt hrow hline' ?_) ?_
        · intro hsound
          exact .pure (hsound.appendScalar (width_of_glyph hcell hglyph))
        rintro ⟨grid, appended⟩ hgrid
        have hadv := hs.setGrid hgrid
        have hextend : Answers (h.setGrid grid) (if appended then
            (h.setGrid grid).extendRememberedGraphic (row, col) ch else h.setGrid grid) := by
          split
          · exact hadv.ok.extendRememberedGraphic _ _
          · exact hadv.ok.advances_refl
        have hall := hadv.trans hextend
        refine .pure (hall.trans (hall.ok.setActiveGraphemeCell ?_ ?_))
        · exact hall.evolves.rows.symm ▸ hrow
        · exact hall.evolves.cols.symm ▸ hcol
      · exact fun _ => .pure hs.advances_refl

theorem joinAt (hs : h.toScreen.Ok) {row col : Nat} (ch : Char) {line : Row}
    (hrow : row < h.grid.rows) (hcol : col < h.grid.cols)
    (hline : h.grid.raw[h.grid.scrollbackLen + row]? = some line)
    (hcell : line.cells[col]? = some cell) (hglyph : cell.isGlyph = true)
    (hwidth : width = 1 ∧ cell.width = 1 ∨ width = 2 ∧ col + 1 < h.grid.cols) :
    Runs (h.joinAt row col width ch) fun out => Answers h out.1 := by
  refine .bind (hs.grid.editRowMarkedAt hrow hline ?_) ?_
  · intro hsound
    refine hsound.joinScalar hcol (width_of_glyph hcell hglyph) (hwidth.imp_left fun hone => ?_) _
    exact ⟨hone.1, (Row.widthAt_of_some hcell).trans hone.2⟩
  rintro ⟨grid, appended⟩ hgrid
  have hadv := hs.setGrid hgrid
  apply Runs.pure
  show Answers h (if appended then (h.setGrid grid).extendRememberedGraphic (row, col) ch
    else h.setGrid grid)
  split
  · exact hadv.trans (hadv.ok.extendRememberedGraphic _ _)
  · exact hadv

/-- Joined columns: one only when the cell had one, and never more than two. -/
theorem joinedWidth_cases (hcell : cell.width = 1 ∨ cell.width = 2)
    (hwidth : width = 1 ∨ width = 2) :
    joinedWidth (some cell) width = 1 ∧ cell.width = 1 ∨ joinedWidth (some cell) width = 2 := by
  have heq : joinedWidth (some cell) width = min (max cell.width width) 2 := rfl
  omega

/-- A regular cell that shows a character is one or two columns wide. -/
theorem width_of_regular_glyph (hregular : cell.Regular)
    (hglyph : cell.isGlyph = true) : cell.width = 1 ∨ cell.width = 2 := by
  rcases hregular with hone | htwo | rfl
  · exact .inl hone
  · exact .inr htwo
  · cases hglyph

theorem tryAppendToActiveGrapheme (hs : h.toScreen.Ok) (ch : Char)
    (hwidth : width = 1 ∨ width = 2) :
    Runs (h.tryAppendToActiveGrapheme ch width) fun out => Answers h out.1 := by
  apply Runs.bind hs.activeGraphemePosition
  intro position hposition
  cases position with
  | none => exact .pure hs.advances_refl
  | some position =>
    obtain ⟨row, col⟩ := position
    obtain ⟨hrow, hcol, line, cell, hline, hcell, hglyph⟩ := hposition row col rfl
    apply Runs.bind (hs.visibleRow hrow)
    rintro line' ⟨hline', hsound⟩
    obtain rfl : line = line' := Option.some.inj (hline.symm.trans hline')
    have hregular := width_of_regular_glyph (hsound.paired.regular.at hcell) hglyph
    have hjoined := joinedWidth_cases hregular hwidth
    have hget : line.get col = some cell := hcell
    dsimp only
    rw [hget]
    apply Runs.ite
    · exact fun _ => .pure hs.advances_refl
    intro _
    apply Runs.ite
    · exact fun _ => .pure hs.advances_refl
    intro hedge
    have hfit : joinedWidth (some cell) width = 1 ∧ cell.width = 1 ∨
        joinedWidth (some cell) width = 2 ∧ col + 1 < h.grid.cols :=
      hjoined.imp_right fun htwo => ⟨htwo, by omega⟩
    apply Runs.bind (hs.joinAt ch hrow hcol hline hcell hglyph hfit)
    rintro ⟨h₁, appended⟩ hadv
    replace hadv : Answers h h₁ := hadv
    apply Runs.ite
    · exact fun _ => .pure hadv
    · intro _
      apply Runs.pure
      refine hadv.trans (hadv.ok.setCursor ?_ ?_)
      · split
        · exact hadv.ok.row
        · exact hadv.ok.row
      · have hcols : h₁.cursor.col < h₁.grid.cols := hadv.ok.col
        split
        · exact hadv.ok.lastCol
        · next hlt =>
          replace hlt : ¬h₁.grid.cols ≤ col + joinedWidth (some cell) width := hlt
          show max h₁.cursor.col (col + joinedWidth (some cell) width) < h₁.grid.cols
          omega

theorem tryAppendRegionalIndicatorPair (hs : h.toScreen.Ok) (ch : Char) :
    Runs (h.tryAppendRegionalIndicatorPair ch) fun out => Answers h out.1 := by
  apply Runs.ite
  · exact fun _ => .pure hs.advances_refl
  intro _
  apply Runs.bind hs.activeGraphemePosition
  intro position hposition
  cases position with
  | none => exact .pure hs.advances_refl
  | some position =>
    obtain ⟨row, col⟩ := position
    obtain ⟨hrow, hcol, line, cell, hline, hcell, hglyph⟩ := hposition row col rfl
    apply Runs.bind (hs.visibleRow hrow)
    rintro line' -
    apply Runs.ite
    · exact fun _ => .pure hs.advances_refl
    intro _
    apply Runs.ite
    · exact fun _ => .pure hs.advances_refl
    intro hedge
    apply Runs.bind (hs.joinAt ch hrow hcol hline hcell hglyph (.inr ⟨rfl, by omega⟩))
    rintro ⟨h₁, appended⟩ hadv
    apply Runs.ite
    · exact fun _ => .pure hadv
    · intro _
      have hrows : h₁.grid.rows = h.grid.rows := hadv.evolves.rows
      have hcols : h₁.grid.cols = h.grid.cols := hadv.evolves.cols
      have hactive := hadv.ok.setActiveGraphemeCell (hrows.symm ▸ hrow) (hcols.symm ▸ hcol)
      have hpos := hadv.ok.cols
      apply Runs.pure
      refine hadv.trans (hactive.trans (hactive.ok.setCursor hactive.ok.row ?_))
      show min (col + 2) (h₁.grid.cols - 1) < h₁.grid.cols
      omega

variable [Crates]

theorem writeChar (hs : h.toScreen.Ok) (ch : Char) : Runs (h.writeChar ch) (Answers h) := by
  unfold Handler.writeChar
  split
  · exact .pure hs.advances_refl
  · next width _ =>
    apply Runs.ite
    · exact fun _ => hs.appendZeroWidthScalar ch
    intro hpos
    have hwidth : min width 2 = 1 ∨ min width 2 = 2 := by omega
    apply Runs.bind (hs.tryAppendToActiveGrapheme ch hwidth)
    rintro ⟨h₁, joined⟩ hadv₁
    apply Runs.ite
    · exact fun _ => .pure hadv₁
    intro _
    apply Runs.bind (hadv₁.ok.tryAppendRegionalIndicatorPair ch)
    rintro ⟨h₂, joined'⟩ hadv₂
    apply Runs.ite
    · exact fun _ => .pure (hadv₁.trans hadv₂)
    · intro _
      have hremember := hadv₂.ok.rememberGraphicScalar ch
      exact (hadv₁.trans (hadv₂.trans hremember)).next (hremember.ok.startGlyph ch hwidth)

theorem repeatPrecedingChar (hs : h.toScreen.Ok) (count : Nat) :
    Runs (h.repeatPrecedingChar count) (Answers h) := by
  apply Runs.ite
  · exact fun _ => .pure hs.advances_refl
  · intro _
    split
    · exact .pure hs.advances_refl
    · exact hs.each _ fun _ ch hs' => hs'.writeChar ch

end Shux.Vt.Screen.Ok
