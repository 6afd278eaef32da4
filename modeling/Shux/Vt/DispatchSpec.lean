/-
# Every sequence keeps the screen in order

One lemma for each operation a sequence can name, and from them the four kinds of calls
that stay on their screen.
-/

import Shux.Vt.PrintSpec

namespace Shux.Vt.Screen.Ok

open Checked Handler

variable {h : Handler}
variable {scroll : Grid → Nat → Nat → Nat → Checked Grid}

section

variable (hs : h.toScreen.Ok)
include hs

theorem eraseInRow (col count : Nat) :
    Runs (h.eraseInRow col count) fun h' => Answers h h' ∧ ∃ grid, h' = h.setGrid grid :=
  hs.onGrid (hs.grid.eraseChars hs.row col count _)

theorem eraseToRight : Runs h.eraseToRight (Answers h) := by
  apply Runs.bind (.sub hs.col.le)
  rintro _ rfl
  exact (hs.eraseInRow _ _).mono fun _ hout => hout.1

theorem eraseToLeft : Runs h.eraseToLeft (Answers h) :=
  (hs.eraseInRow _ _).mono fun _ hout => hout.1

theorem eraseInDisplay (param : Nat) : Runs (h.eraseInDisplay param) (Answers h) := by
  unfold Handler.eraseInDisplay
  dsimp only
  split
  · apply Runs.bind hs.eraseToRight
    intro h₁ hadv
    apply Runs.ite
    · exact fun _ => hadv.next (hadv.ok.onGrid_advances (hadv.ok.grid.clearBelow _ _))
    · exact fun _ => .pure hadv
  · have habove : Runs (if 0 < h.cursor.row then do
          let row ← sub h.cursor.row 1
          h.onGrid fun g => g.clearAbove row h.cursor.style.bg
        else pure h) (Answers h) := by
      apply Runs.ite
      · intro hpos
        apply Runs.bind (.sub hpos)
        rintro _ rfl
        have hrow := hs.row
        exact hs.onGrid_advances (hs.grid.clearAbove (by omega) _)
      · exact fun _ => .pure hs.advances_refl
    apply Runs.bind habove
    intro h₁ hadv
    exact hadv.next hadv.ok.eraseToLeft
  · exact hs.onGrid_advances (hs.grid.clearVisible _)
  · apply Runs.bind (hs.onGrid_advances (hs.grid.clearVisible _))
    intro h₁ hadv
    exact hadv.next (hadv.ok.onGrid_advances (.pure hadv.ok.grid.clearScrollback))
  · exact .pure hs.advances_refl

theorem eraseInLine (param : Nat) : Runs (h.eraseInLine param) (Answers h) := by
  unfold Handler.eraseInLine
  split
  · exact hs.eraseToRight
  · exact hs.eraseToLeft
  · exact (hs.eraseInRow _ _).mono fun _ hout => hout.1
  · exact .pure hs.advances_refl

end

/-- A way to scroll a region of a grid. -/
def Scrolls (scroll : Grid → Nat → Nat → Nat → Checked Grid) : Prop :=
  ∀ (g : Grid) (top bottom n : Nat), g.Ok → Runs (scroll g top bottom n) (Grid.Evolves g)

theorem scrolls_up : Scrolls Grid.scrollUpN := fun _ top bottom n hg => hg.scrollUpN top bottom n

theorem scrolls_down : Scrolls Grid.scrollDownN :=
  fun _ top bottom n hg => hg.scrollDownN top bottom n

section

variable (hs : h.toScreen.Ok)
include hs

theorem scrollFromCursor (n : Nat) (hscroll : Scrolls scroll) :
    Runs (h.scrollFromCursor n scroll) (Answers h) := by
  unfold Handler.scrollFromCursor
  split
  · exact .pure hs.advances_refl
  · exact hs.onGrid_advances (hscroll _ _ _ _ hs.grid)

theorem scrollInRegion (n : Nat) (hscroll : Scrolls scroll) :
    Runs (h.scrollInRegion n scroll) (Answers h) :=
  hs.onGrid_advances (hscroll _ _ _ _ hs.grid)

theorem setTabs {tabs : TabStops}
    (htabs : tabs.stops.length = h.tabStops.stops.length) : Answers h { h with tabStops := tabs } :=
  hs.advances_view ⟨⟨rfl, rfl, rfl, rfl, rfl, rfl⟩, .refl _⟩ ⟨hs.top, hs.bottom⟩ hs.active
    (htabs.trans hs.tabs)

theorem tabClear (param : Nat) : Answers h (h.tabClear param) := by
  unfold Handler.tabClear
  split
  · exact hs.setTabs List.length_set
  · exact hs.setTabs (List.length_map _)
  · exact hs.advances_refl

theorem setPen (pen : Pen) (wrote : Bool) : Answers h (h.setPen pen wrote) := by
  unfold Handler.setPen
  split
  · exact hs.setCursor hs.row hs.col
  · exact hs.advances_refl

theorem answerPlain (params : Params) (response : String) :
    Answers h (h.answerPlain params response) := by
  unfold Handler.answerPlain
  split
  · exact hs.pushResponse response
  · exact hs.advances_refl

theorem reportCursorPosition (isPrivate : Bool) : Answers h (h.reportCursorPosition isPrivate) := by
  unfold Handler.reportCursorPosition
  dsimp only
  split
  · exact hs.pushResponse _
  · exact hs.pushResponse _

theorem reportMode (mode : Nat) (isPrivate : Bool) : Answers h (h.reportMode mode isPrivate) := by
  unfold Handler.reportMode
  split
  · exact hs.pushResponse _
  · exact hs.pushResponse _

theorem statusReport (param : Nat) : Answers h (h.statusReport param) := by
  unfold Handler.statusReport
  split
  · exact hs.pushResponse _
  · exact hs.reportCursorPosition false
  · exact hs.advances_refl

theorem privateStatusReport (param : Nat) : Answers h (h.privateStatusReport param) := by
  unfold Handler.privateStatusReport
  split
  · exact hs.reportCursorPosition true
  · exact hs.pushResponse _
  · exact hs.pushResponse _
  · exact hs.pushResponse _
  · exact hs.pushResponse _
  · exact hs.advances_refl

theorem setScrollRegion (params : Params) : Answers h (h.setScrollRegion params) := by
  unfold Handler.setScrollRegion checkedPred
  have hrows := hs.rows
  rw [if_neg (by omega)]
  dsimp only
  split
  · next hlt =>
    have hregion : Answers h { h with
        scrollRegion := ⟨params.at 0 1 - 1,
          min (params.at 1 (h.grid.rows % 2 ^ 16) - 1) (h.grid.rows - 1)⟩ } :=
      hs.setRegion hlt.le (lt_of_le_of_lt (min_le_right _ _) (by omega))
    exact hregion.trans hregion.ok.homeCursorToOrigin
  · exact hs.advances_refl

theorem setStandardMode (enable : Bool) (param : Nat) :
    Answers h (Handler.setStandardMode enable h param) := by
  unfold Handler.setStandardMode
  split <;> exact hs.advances_same ⟨⟨rfl, rfl, rfl, rfl, rfl, rfl⟩, .refl _⟩ rfl rfl rfl

/-- A tab stop found from the tab stops of the screen is a column of it. -/
theorem setTabCol {x : Checked Nat} (hx : Runs x (· < h.tabStops.stops.length)) :
    Runs (do
      let col ← x
      pure (h.setCol col)) (Answers h) := by
  apply Runs.bind hx
  intro col hcol
  exact .pure (hs.setCol (hs.tabs ▸ hcol))

theorem nextTab (count : Nat) : Runs (h.nextTabCol count) (· < h.tabStops.stops.length) :=
  TabStops.runs_nextFrom (hs.tabs.symm ▸ hs.cols) _ _

theorem prevTab (count : Nat) : Runs (h.prevTabCol count) (· < h.tabStops.stops.length) :=
  TabStops.runs_prevFrom (hs.tabs.symm ▸ hs.cols) _ _

end

theorem at_pos (params : Params) (i : Nat) {default : Nat} (hdefault : 0 < default) :
    0 < params.at i default := by
  unfold Params.at
  split
  · exact hdefault
  · split
    · exact hdefault
    · omega

section

variable (hs : h.toScreen.Ok)
include hs

theorem csi [Crates] (op : Csi) (params : Params) : Runs (h.csi op params) (Answers h) := by
  have hcol := hs.col
  have hcols := hs.cols
  cases op with
  | cursorUp => exact .pure (hs.moveCursorUp _)
  | cursorDown => exact .pure (hs.moveCursorDown _)
  | cursorForward =>
    apply Runs.bind (.sub hcols)
    rintro _ rfl
    exact .pure (hs.setCol (by omega))
  | cursorBackward => exact .pure (hs.setCol (by omega))
  | nextLine =>
    have hmove := hs.moveCursorDown (params.at 0 1)
    exact .pure (hmove.trans (hmove.ok.setCursor hmove.ok.row hmove.ok.cols))
  | previousLine =>
    have hmove := hs.moveCursorUp (params.at 0 1)
    exact .pure (hmove.trans (hmove.ok.setCursor hmove.ok.row hmove.ok.cols))
  | columnAbsolute =>
    apply Runs.bind (.sub hcols)
    rintro _ rfl
    exact .pure (hs.setCol (by omega))
  | forwardTab => exact hs.setTabCol (hs.nextTab _)
  | backwardTab => exact hs.setTabCol (hs.prevTab _)
  | cursorPosition =>
    apply Runs.bind (.sub hcols)
    rintro _ rfl
    apply Runs.pure
    refine hs.setCursor (hs.addressedRow_lt _ _) ?_
    show min (params.at 1 1 - 1) (h.grid.cols - 1) < h.grid.cols
    omega
  | eraseDisplay => exact hs.eraseInDisplay _
  | eraseLine => exact hs.eraseInLine _
  | insertLines => exact hs.scrollFromCursor _ scrolls_down
  | deleteLines => exact hs.scrollFromCursor _ scrolls_up
  | scrollUp => exact hs.scrollInRegion _ scrolls_up
  | scrollDown => exact hs.scrollInRegion _ scrolls_down
  | insertChars =>
    show Runs (h.onGrid fun g => g.insertChars h.cursor.row h.cursor.col (params.at 0 1)) _
    apply hs.onGrid_advances
    exact hs.grid.insertChars hs.row hcol (at_pos params 0 Nat.one_pos)
  | deleteChars =>
    show Runs (h.onGrid fun g => g.deleteChars h.cursor.row h.cursor.col (params.at 0 1)) _
    apply hs.onGrid_advances
    exact hs.grid.deleteChars hs.row _ _
  | eraseChars => exact (hs.eraseInRow _ _).mono fun _ hout => hout.1
  | repeatChar => exact hs.repeatPrecedingChar _
  | rowAbsolute => exact .pure (hs.setCursor (hs.addressedRow_lt _ _) hcol)
  | tabClear => exact .pure (hs.tabClear _)
  | saveCursor =>
    apply Runs.pure
    split
    · exact hs.saveCursorState
    · exact hs.advances_refl
  | restoreCursor =>
    apply Runs.pure
    split
    · exact hs.restoreCursorState
    · exact hs.advances_refl
  | rendition => exact .pure (hs.setPen _ _)
  | deviceAttributes => exact .pure (hs.answerPlain _ _)
  | secondaryAttributes => exact .pure (hs.answerPlain _ _)
  | statusReport => exact .pure (hs.foldl _ fun _ param hs' => hs'.statusReport param)
  | privateStatusReport => exact .pure (hs.foldl _ fun _ param hs' => hs'.privateStatusReport param)
  | scrollRegion => exact .pure (hs.setScrollRegion params)
  | setMode enable => exact .pure (hs.foldl _ fun _ param hs' => hs'.setStandardMode enable param)
  | setPrivateMode enable => exact .pure hs.advances_refl
  | cursorStyle => exact .pure (hs.setCursor hs.row hcol)
  | version => exact .pure (hs.answerPlain _ _)
  | requestMode isPrivate =>
    exact .pure (hs.foldl _ fun _ mode hs' => hs'.reportMode mode isPrivate)

theorem control (op : Control) : Runs (h.control op) (Answers h) := by
  cases op with
  | backspace =>
    apply Runs.ite
    · intro hpos
      apply Runs.bind (.sub hpos)
      rintro _ rfl
      have hcol := hs.col
      exact .pure (hs.setCol (by omega))
    · exact fun _ => .pure hs.advances_refl
  | tab => exact hs.setTabCol (hs.nextTab _)
  | linefeed => exact hs.linefeed
  | carriageReturn => exact .pure (hs.setCol hs.cols)
  | shift slot =>
    exact .pure (hs.advances_same ⟨⟨rfl, rfl, rfl, rfl, rfl, rfl⟩, .refl _⟩ rfl rfl rfl)

theorem execute (byte : UInt8) : Runs (h.execute byte) (Answers h) := by
  have hclear := hs.clearActiveGraphemeCell
  unfold Handler.execute
  dsimp only
  split
  · exact hclear.next (hclear.ok.control _)
  · exact .pure hclear

theorem print [Crates] (ch : Char) : Runs (h.print ch) (Answers h) := by
  apply Runs.ite
  · exact fun _ => hs.execute _
  · exact fun _ => hs.writeChar _

theorem esc (op : Esc) : Runs (h.esc op) (Answers h) := by
  cases op with
  | saveCursor => exact .pure hs.saveCursorState
  | restoreCursor => exact .pure hs.restoreCursorState
  | alignmentPattern => exact hs.screenAlignmentPattern
  | designate slot final =>
    apply Runs.pure
    cases slot with
    | g0 | g1 => exact hs.advances_same ⟨⟨rfl, rfl, rfl, rfl, rfl, rfl⟩, .refl _⟩ rfl rfl rfl
  | keypad application =>
    exact .pure (hs.advances_same ⟨⟨rfl, rfl, rfl, rfl, rfl, rfl⟩, .refl _⟩ rfl rfl rfl)
  | tabSet => exact .pure (hs.setTabs List.length_set)
  | reverseIndex => exact hs.reverseIndex
  | index => exact hs.linefeed
  | nextLine =>
    have hreturn := hs.setCol hs.cols
    exact hreturn.next hreturn.ok.linefeed
  | fullReset => exact .pure hs.advances_refl

theorem repaint : Answers h h.repaint := hs.setGrid hs.grid.markAllDirty

theorem dynamicColor (selector : String) (param : List UInt8) (bell : Bool)
    (shown : Rgb) (current : Option Rgb) (set : Rgb → TerminalDefaultColors) :
    Answers h (h.dynamicColor selector param bell shown current set) := by
  unfold Handler.dynamicColor
  split
  · exact hs.pushResponse _
  · split
    · exact hs.advances_refl
    · split
      · exact hs.advances_refl
      · exact (hs.setColors _).trans (hs.setColors _).ok.repaint

theorem resetColor (current : Option Rgb) (colors : TerminalDefaultColors) :
    Answers h (h.resetColor current colors) := by
  have hcolors := hs.setColors colors
  unfold Handler.resetColor
  dsimp only
  split
  · exact hcolors.trans hcolors.ok.repaint
  · exact hcolors

theorem paletteEntry (bell : Bool) (entry : List UInt8 × List UInt8) :
    Answers h (Handler.paletteEntry bell h entry) := by
  unfold Handler.paletteEntry
  split
  · exact hs.advances_refl
  · split
    · exact hs.pushResponse _
    · split
      · have hnote : Answers h { h with paletteOverridden := true } :=
          hs.advances_same ⟨⟨rfl, rfl, rfl, rfl, rfl, rfl⟩, .refl _⟩ rfl rfl rfl
        exact hnote.trans hnote.ok.repaint
      · exact hs.advances_refl

theorem oscHyperlink (params : List (List UInt8)) : Answers h (h.oscHyperlink params) := by
  unfold Handler.oscHyperlink
  split
  · exact hs.advances_refl
  · split
    · exact hs.advances_refl
    · dsimp only
      split
      · exact hs.setPen _ true
      · split
        · exact hs.advances_refl
        · split
          · exact hs.advances_refl
          · exact hs.setPen _ true

theorem oscTitle (title : Option (List UInt8)) : Answers h (h.oscTitle title) := by
  unfold Handler.oscTitle
  split
  · exact hs.advances_refl
  · exact hs.setTitle _

theorem oscDispatch (params : List (List UInt8)) (bell : Bool) :
    Answers h (h.oscDispatch params bell) := by
  unfold Handler.oscDispatch
  split
  · exact hs.advances_refl
  · dsimp only
    split
    · exact hs.oscTitle _
    iterate 3
      split
      · split
        · exact hs.advances_refl
        · exact hs.dynamicColor _ _ _ _ _ _
    iterate 3
      split
      · exact hs.resetColor _ _
    split
    · exact hs.foldl _ fun _ entry hs' => hs'.paletteEntry bell entry
    split
    · exact hs.oscHyperlink _
    · exact hs.advances_refl

theorem setDcs (dcs : Option DcsState) :
    Answers h { h with dcsState := dcs } :=
  hs.advances_same ⟨⟨rfl, rfl, rfl, rfl, rfl, rfl⟩, .refl _⟩ rfl rfl rfl

theorem hook (intermediates : List UInt8) (ignore : Bool) (action : Char) :
    Answers h (h.hook intermediates ignore action) := by
  unfold Handler.hook
  split
  · exact hs.setDcs _
  · exact hs.setDcs _

theorem putDcs (byte : UInt8) : Answers h (h.putDcs byte) := by
  unfold Handler.putDcs
  split
  · exact hs.advances_refl
  · split
    · exact hs.advances_refl
    · split
      · exact hs.setDcs _
      · exact hs.setDcs _

theorem unhook : Answers h h.unhook := by
  unfold Handler.unhook
  split
  · exact hs.advances_refl
  · have hdrop := hs.setDcs none
    dsimp only
    split
    · exact hdrop
    · split
      · exact hdrop.trans (hdrop.ok.pushResponse _)
      · split
        · exact hdrop.trans (hdrop.ok.pushResponse _)
        · exact hdrop

end

end Shux.Vt.Screen.Ok
