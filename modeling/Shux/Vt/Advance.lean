/-
# What a control sequence can do

`Advances h h'` says once what every operation of the handler keeps to. The screen stays
in order: its grid evolves, the cursor and the cell under construction stay inside, and
the margins stay in place. No operation changes the screen that is showing, and each
component of the presented frame that it leaves untouched is as it was. `Answers` adds that
replies are queued within the budget of a batch.
-/

import Shux.Vt.Dispatch
import Shux.Vt.Evolve

namespace Shux.Vt

open Checked

/-- The screen is in order. -/
structure Screen.Ok (s : Screen) : Prop where
  grid : s.grid.Ok
  rows : 1 ≤ s.grid.rows
  cols : 1 ≤ s.grid.cols
  row : s.cursor.row < s.grid.rows
  col : s.cursor.col < s.grid.cols
  top : s.scrollRegion.top ≤ s.scrollRegion.bottom
  bottom : s.scrollRegion.bottom < s.grid.rows
  active : ∀ row col, s.activeGraphemeCell = some (row, col) → row < s.grid.rows ∧ col < s.grid.cols
  tabs : s.tabStops.stops.length = s.grid.cols

/-- A component is touched, or it is what it was. -/
def Kept {α : Type} (was now : Bool) (x y : α) : Prop := now = was ∧ y = x ∨ now = true

theorem Kept.refl {α : Type} (was : Bool) (x : α) : Kept was was x x := .inl ⟨rfl, rfl⟩

theorem Kept.of_eq {α : Type} (touched : Bool) (x : α) : Kept false touched x x := by
  cases touched with
  | false => exact .refl false x
  | true => exact .inr rfl

theorem Kept.trans {α : Type} {a b c : Bool} {x y z : α} (h : Kept a b x y) (h' : Kept b c y z) :
    Kept a c x z := by
  rcases h' with ⟨rfl, rfl⟩ | rfl
  · exact h
  · exact .inr rfl

namespace Handler

/-- What an operation of the handler can do. -/
structure Advances (h h' : Handler) : Prop where
  ok : h'.toScreen.Ok
  evolves : Grid.Evolves h.grid h'.grid
  alternate : h'.modes.alternateScreen = h.modes.alternateScreen
  grid : Kept h.touched.grid h'.touched.grid h.grid h'.grid
  cursor : Kept h.touched.cursor h'.touched.cursor h.cursor h'.cursor
  title : Kept h.touched.title h'.touched.title h.title h'.title
  colors : Kept h.touched.colors h'.touched.colors h.defaultColors h'.defaultColors

/-- Replies are queued behind those there are, and none once the budget is spent. -/
structure Replied (before after : List String) : Prop where
  queued : before <+: after
  budget : after.length ≤ max before.length maxResponsesPerBatch

theorem Replied.refl (replies : List String) : Replied replies replies :=
  ⟨List.prefix_refl replies, Nat.le_max_left ..⟩

theorem Replied.trans {a b c : List String} (h : Replied a b) (h' : Replied b c) : Replied a c := by
  have hbudget := h.budget
  have hbudget' := h'.budget
  exact ⟨h.queued.trans h'.queued, by omega⟩

/-- An operation that answers within the budget. -/
structure Answers (h h' : Handler) : Prop extends Advances h h' where
  replies : Replied h.responses h'.responses

variable {h h' h'' : Handler}

theorem Advances.trans (hadv : Advances h h') (hadv' : Advances h' h'') : Advances h h'' where
  ok := hadv'.ok
  evolves := hadv.evolves.trans hadv'.evolves
  alternate := hadv'.alternate.trans hadv.alternate
  grid := hadv.grid.trans hadv'.grid
  cursor := hadv.cursor.trans hadv'.cursor
  title := hadv.title.trans hadv'.title
  colors := hadv.colors.trans hadv'.colors

theorem Answers.trans (hadv : Answers h h') (hadv' : Answers h' h'') : Answers h h'' :=
  ⟨hadv.toAdvances.trans hadv'.toAdvances, hadv.replies.trans hadv'.replies⟩

/-- Continue with an operation on the screen reached so far. -/
theorem Answers.next {x : Checked Handler} (hadv : Answers h h') (hx : Runs x (Answers h')) :
    Runs x (Answers h) :=
  hx.mono fun _ => hadv.trans

/-- Two handlers that differ in nothing the invariant or the frame speaks of. -/
structure SameView (h h' : Handler) : Prop where
  grid : h'.grid = h.grid
  cursor : h'.cursor = h.cursor
  title : h'.title = h.title
  colors : h'.defaultColors = h.defaultColors
  touched : h'.touched = h.touched
  alternate : h'.modes.alternateScreen = h.modes.alternateScreen

/-- Two such handlers, the second of which may have answered. -/
structure SameScreen (h h' : Handler) : Prop extends SameView h h' where
  replies : Replied h.responses h'.responses

end Handler

namespace Screen.Ok

open Handler

variable {h h' : Handler}
variable {f : Grid → Checked Grid}

section

variable (hs : h.toScreen.Ok)
include hs

/-- A change behind the frame: margins, tab stops and the cell under construction stay in
order. -/
theorem view_advances (hv : SameView h h')
    (hregion : h'.scrollRegion.top ≤ h'.scrollRegion.bottom ∧ h'.scrollRegion.bottom < h.grid.rows)
    (hactive : ∀ row col, h'.activeGraphemeCell = some (row, col) →
      row < h.grid.rows ∧ col < h.grid.cols)
    (htabs : h'.tabStops.stops.length = h.grid.cols) : Advances h h' where
  ok := by
    refine ⟨hv.grid ▸ hs.grid, hv.grid ▸ hs.rows, hv.grid ▸ hs.cols, ?_, ?_, hregion.1,
      hv.grid ▸ hregion.2, hv.grid ▸ hactive, hv.grid ▸ htabs⟩
    · rw [hv.cursor, hv.grid]
      exact hs.row
    · rw [hv.cursor, hv.grid]
      exact hs.col
  evolves := hv.grid ▸ hs.grid.evolves_refl
  alternate := hv.alternate
  grid := .inl ⟨congrArg Touched.grid hv.touched, hv.grid⟩
  cursor := .inl ⟨congrArg Touched.cursor hv.touched, hv.cursor⟩
  title := .inl ⟨congrArg Touched.title hv.touched, hv.title⟩
  colors := .inl ⟨congrArg Touched.colors hv.touched, hv.colors⟩

/-- A change of modes, charsets, replies or remembered text. -/
theorem same_advances (hv : SameView h h') (hregion : h'.scrollRegion = h.scrollRegion)
    (hactive : h'.activeGraphemeCell = h.activeGraphemeCell)
    (htabs : h'.tabStops = h.tabStops) : Advances h h' :=
  hs.view_advances hv ⟨hregion ▸ hs.top, hregion ▸ hs.bottom⟩ (hactive ▸ hs.active)
    (htabs ▸ hs.tabs)

theorem advances_view (hv : SameScreen h h')
    (hregion : h'.scrollRegion.top ≤ h'.scrollRegion.bottom ∧ h'.scrollRegion.bottom < h.grid.rows)
    (hactive : ∀ row col, h'.activeGraphemeCell = some (row, col) →
      row < h.grid.rows ∧ col < h.grid.cols)
    (htabs : h'.tabStops.stops.length = h.grid.cols) : Answers h h' :=
  ⟨hs.view_advances hv.toSameView hregion hactive htabs, hv.replies⟩

theorem advances_same (hv : SameScreen h h') (hregion : h'.scrollRegion = h.scrollRegion)
    (hactive : h'.activeGraphemeCell = h.activeGraphemeCell)
    (htabs : h'.tabStops = h.tabStops) : Answers h h' :=
  ⟨hs.same_advances hv.toSameView hregion hactive htabs, hv.replies⟩

theorem advances_refl : Answers h h :=
    hs.advances_same ⟨⟨rfl, rfl, rfl, rfl, rfl, rfl⟩, .refl _⟩ rfl rfl rfl

theorem setCursor {cursor : Cursor} (hrow : cursor.row < h.grid.rows)
    (hcol : cursor.col < h.grid.cols) : Answers h (h.setCursor cursor) where
  ok := ⟨hs.grid, hs.rows, hs.cols, hrow, hcol, hs.top, hs.bottom, hs.active, hs.tabs⟩
  evolves := hs.grid.evolves_refl
  alternate := rfl
  grid := .refl _ _
  cursor := .inr rfl
  title := .refl _ _
  colors := .refl _ _
  replies := .refl _

theorem setGrid {grid : Grid} (hgrid : Grid.Evolves h.grid grid) : Answers h (h.setGrid grid) where
  ok := by
    refine ⟨hgrid.ok, ?_, ?_, ?_, ?_, hs.top, ?_, ?_, ?_⟩
    · exact hgrid.rows.symm ▸ hs.rows
    · exact hgrid.cols.symm ▸ hs.cols
    · exact hgrid.rows.symm ▸ hs.row
    · exact hgrid.cols.symm ▸ hs.col
    · exact hgrid.rows.symm ▸ hs.bottom
    · intro row col hcell
      have hin := hs.active row col hcell
      exact ⟨hgrid.rows.symm ▸ hin.1, hgrid.cols.symm ▸ hin.2⟩
    · exact hs.tabs.trans hgrid.cols.symm
  evolves := hgrid
  alternate := rfl
  grid := .inr rfl
  cursor := .refl _ _
  title := .refl _ _
  colors := .refl _ _
  replies := .refl _

theorem setTitle (title : Option String) : Answers h (h.setTitle title) where
  ok := ⟨hs.grid, hs.rows, hs.cols, hs.row, hs.col, hs.top, hs.bottom, hs.active, hs.tabs⟩
  evolves := hs.grid.evolves_refl
  alternate := rfl
  grid := .refl _ _
  cursor := .refl _ _
  title := .inr rfl
  colors := .refl _ _
  replies := .refl _

theorem setColors (colors : TerminalDefaultColors) : Answers h (h.setColors colors) where
  ok := ⟨hs.grid, hs.rows, hs.cols, hs.row, hs.col, hs.top, hs.bottom, hs.active, hs.tabs⟩
  evolves := hs.grid.evolves_refl
  alternate := rfl
  grid := .refl _ _
  cursor := .refl _ _
  title := .refl _ _
  colors := .inr rfl
  replies := .refl _

/-- An operation on the grid; nothing else of the screen changes. -/
theorem onGrid (hf : Runs (f h.grid) (Grid.Evolves h.grid)) :
    Runs (h.onGrid f) fun h' => Answers h h' ∧ ∃ grid, h' = h.setGrid grid := by
  apply Runs.bind hf
  intro grid hgrid
  exact .pure ⟨hs.setGrid hgrid, grid, rfl⟩

theorem onGrid_advances
    (hf : Runs (f h.grid) (Grid.Evolves h.grid)) : Runs (h.onGrid f) (Answers h) :=
  (hs.onGrid hf).mono fun _ hout => hout.1

theorem setActiveGraphemeCell {row col : Nat} (hrow : row < h.grid.rows)
    (hcol : col < h.grid.cols) : Answers h (h.setActiveGraphemeCell row col) := by
  refine hs.advances_view ⟨⟨rfl, rfl, rfl, rfl, rfl, rfl⟩, .refl _⟩ ⟨hs.top, hs.bottom⟩ ?_ hs.tabs
  intro row' col' heq
  cases heq
  exact ⟨hrow, hcol⟩

theorem clearActiveGraphemeCell : Answers h h.clearActiveGraphemeCell := by
  refine hs.advances_view ⟨⟨rfl, rfl, rfl, rfl, rfl, rfl⟩, .refl _⟩ ⟨hs.top, hs.bottom⟩ ?_ hs.tabs
  intro row col heq
  cases heq

theorem rememberGraphicScalar (ch : Char) :
    Answers h (h.rememberGraphicScalar ch) :=
      hs.advances_same ⟨⟨rfl, rfl, rfl, rfl, rfl, rfl⟩, .refl _⟩ rfl rfl rfl

theorem extendRememberedGraphic (joined : Nat × Nat) (ch : Char) :
    Answers h (h.extendRememberedGraphic joined ch) := by
  unfold Handler.extendRememberedGraphic
  split
  · exact hs.advances_refl
  · exact hs.advances_same ⟨⟨rfl, rfl, rfl, rfl, rfl, rfl⟩, .refl _⟩ rfl rfl rfl

theorem pushResponse (response : String) : Answers h (h.pushResponse response) := by
  unfold Handler.pushResponse
  split
  · exact hs.advances_refl
  · next hbudget =>
    refine hs.advances_same ⟨⟨rfl, rfl, rfl, rfl, rfl, rfl⟩, List.prefix_append _ _, ?_⟩ rfl rfl rfl
    dsimp only
    rw [List.length_append, List.length_singleton]
    omega

/-- A fold of operations that each advance the screen. -/
theorem foldl {ι : Type} {f : Handler → ι → Handler} (is : List ι)
    (hf : ∀ (h : Handler) (i : ι), h.toScreen.Ok → Answers h (f h i)) :
    Answers h (is.foldl f h) := by
  induction is generalizing h with
  | nil => exact hs.advances_refl
  | cons i is ih =>
    have hstep := hf h i hs
    exact hstep.trans (ih hstep.ok)

/-- A loop of operations that each advance the screen. -/
theorem each {ι : Type} {f : Handler → ι → Checked Handler} (is : List ι)
    (hf : ∀ (h : Handler) (i : ι), h.toScreen.Ok → Runs (f h i) (Answers h)) :
    Runs (Checked.each is h f) (Answers h) := by
  apply Runs.each (Answers h) hs.advances_refl
  intro i _ h' hadv
  exact hadv.next (hf h' i hadv.ok)

theorem lastRow : h.gridLastRow < h.grid.rows := by
  have := hs.rows
  unfold gridLastRow
  omega

theorem lastCol : h.grid.cols - 1 < h.grid.cols := by
  have := hs.cols
  omega

theorem setCol {col : Nat} (hcol : col < h.grid.cols) : Answers h (h.setCol col) :=
  hs.setCursor hs.row hcol

theorem originTop_lt : h.originTop < h.grid.rows := by
  have hlast := hs.lastRow
  unfold originTop
  split
  · omega
  · exact hs.rows

theorem addressedRow_lt (param default : Nat) : h.addressedRow param default < h.grid.rows := by
  have hlast := hs.lastRow
  exact lt_of_le_of_lt (min_le_right _ _) hlast

theorem moveCursorUp (n : Nat) : Answers h (h.moveCursorUp n) := by
  have hrow := hs.row
  have htop : h.upwardVerticalTop < h.grid.rows := by
    unfold upwardVerticalTop
    dsimp only
    split
    · omega
    · exact hs.rows
  refine hs.setCursor ?_ hs.col
  show max (h.cursor.row - n) h.upwardVerticalTop < h.grid.rows
  omega

theorem moveCursorDown (n : Nat) : Answers h (h.moveCursorDown n) := by
  have hlast := hs.lastRow
  have hbottom : h.downwardVerticalBottom < h.grid.rows := by
    unfold downwardVerticalBottom
    dsimp only
    split <;> omega
  refine hs.setCursor ?_ hs.col
  show min (h.cursor.row + n) h.downwardVerticalBottom < h.grid.rows
  omega

theorem homeCursorToOrigin : Answers h h.homeCursorToOrigin := hs.setCursor hs.originTop_lt hs.cols

theorem saveCursorState : Answers h h.saveCursorState := hs.setCursor hs.row hs.col

/-- A restored cursor is clamped, wherever it was saved. -/
theorem restoreCursorState : Answers h h.restoreCursorState := by
  unfold Handler.restoreCursorState Cursor.restore
  cases hsaved : h.cursor.saved with
  | none => exact hs.setCursor hs.row hs.col
  | some saved =>
    have hlast := hs.lastRow
    have hcol := hs.lastCol
    have hv : Answers h { h with
        modes := { h.modes with originMode := saved.originMode }, charsets := saved.charsets } :=
      hs.advances_same ⟨⟨rfl, rfl, rfl, rfl, rfl, rfl⟩, .refl _⟩ rfl rfl rfl
    refine hv.trans (hv.ok.setCursor ?_ ?_)
    · show min saved.row h.gridLastRow < h.grid.rows
      omega
    · show min saved.col (h.grid.cols - 1) < h.grid.cols
      omega

theorem setRegion {region : ScrollRegion} (htop : region.top ≤ region.bottom)
    (hbottom : region.bottom < h.grid.rows) : Answers h { h with scrollRegion := region } :=
  hs.advances_view ⟨⟨rfl, rfl, rfl, rfl, rfl, rfl⟩, .refl _⟩ ⟨htop, hbottom⟩ hs.active hs.tabs

theorem screenAlignmentPattern : Runs h.screenAlignmentPattern (Answers h) := by
  apply Runs.bind (hs.onGrid hs.grid.fillAlignmentPattern)
  rintro _ ⟨hadv, grid, rfl⟩
  have hregion : Answers (h.setGrid grid) { h.setGrid grid with
      scrollRegion := ⟨0, (h.setGrid grid).grid.rows - 1⟩ } :=
    hadv.ok.setRegion (Nat.zero_le _) hadv.ok.lastRow
  exact .pure (hadv.trans (hregion.trans (hregion.ok.setCursor hregion.ok.rows hregion.ok.cols)))

theorem linefeed : Runs h.linefeed (Answers h) := by
  have hmove : Runs (if h.cursor.row = h.scrollRegion.bottom then
      h.onGrid fun g => g.scrollUp h.scrollRegion.top h.scrollRegion.bottom
    else do
      let last ← sub h.grid.rows 1
      pure (if h.cursor.row < last then h.setCursor { h.cursor with row := h.cursor.row + 1 }
        else h)) (Answers h) := by
    apply Runs.ite
    · exact fun _ => hs.onGrid_advances (hs.grid.scrollUpN _ _ 1)
    · intro _
      apply Runs.bind (.sub hs.rows)
      rintro _ rfl
      apply Runs.pure
      split
      · next hlt =>
        refine hs.setCursor ?_ hs.col
        show h.cursor.row + 1 < h.grid.rows
        omega
      · exact hs.advances_refl
  apply Runs.bind hmove
  intro h₁ hadv
  have hnew : Answers h₁ (if h₁.modes.newlineMode then
      h₁.setCursor { h₁.cursor with col := 0 } else h₁) := by
    split
    · exact hadv.ok.setCursor hadv.ok.row hadv.ok.cols
    · exact hadv.ok.advances_refl
  exact .pure (hadv.trans (hnew.trans (hnew.ok.setCursor hnew.ok.row hnew.ok.col)))

theorem reverseIndex : Runs h.reverseIndex (Answers h) := by
  have hmove : Runs (if h.cursor.row = h.scrollRegion.top then
      h.onGrid fun g => g.scrollDown h.scrollRegion.top h.scrollRegion.bottom
    else if 0 < h.cursor.row then do
      let row ← sub h.cursor.row 1
      pure (h.setCursor { h.cursor with row })
    else pure h) (Answers h) := by
    apply Runs.ite
    · exact fun _ => hs.onGrid_advances (hs.grid.scrollDownN _ _ 1)
    · intro _
      apply Runs.ite
      · intro hpos
        apply Runs.bind (.sub hpos)
        rintro _ rfl
        have hrow := hs.row
        apply Runs.pure
        refine hs.setCursor ?_ hs.col
        show h.cursor.row - 1 < h.grid.rows
        omega
      · exact fun _ => .pure hs.advances_refl
  apply Runs.bind hmove
  intro h₁ hadv
  exact .pure (hadv.trans (hadv.ok.setCursor hadv.ok.row hadv.ok.col))

end

end Screen.Ok

namespace TabStops

variable {tabs : TabStops}

theorem walk_lt {stop : Nat → Option Nat} {edge bound : Nat} (hedge : edge < bound)
    (hstop : ∀ col next, stop col = some next → next < bound) (n : Nat) {current : Nat}
    (hcurrent : current < bound) : walk stop edge n current < bound := by
  induction n generalizing current with
  | zero => exact hcurrent
  | succ n ih =>
    rw [walk]
    split
    · exact hedge
    · next next hnext => exact ih (hstop current next hnext)

theorem find_zipIdx_lt {xs : List (Bool × Nat)} {next : Nat}
    (hsub : ∀ entry ∈ xs, entry ∈ tabs.stops.zipIdx)
    (h : (xs.find? (·.1)).map (·.2) = some next) : next < tabs.stops.length := by
  obtain ⟨⟨stop, i⟩, hfind, rfl⟩ := Option.map_eq_some_iff.mp h
  have hmem := hsub _ (List.mem_of_find?_eq_some hfind)
  exact List.snd_lt_of_mem_zipIdx hmem

theorem nextAfter_lt (col next : Nat) (h : tabs.nextAfter col = some next) :
    next < tabs.stops.length :=
  find_zipIdx_lt (fun _ hentry => List.mem_of_mem_drop hentry) h

theorem prevBefore_lt (col next : Nat) (h : tabs.prevBefore col = some next) :
    next < tabs.stops.length :=
  find_zipIdx_lt (fun _ hentry => List.mem_of_mem_take (List.mem_reverse.mp hentry)) h

theorem runs_nextFrom (h : 1 ≤ tabs.stops.length) (col count : Nat) :
    Runs (tabs.nextFrom col count) (· < tabs.stops.length) := by
  apply Runs.ite
  · exact fun _ => .pure h
  · intro _
    apply Runs.bind (.sub h)
    rintro _ rfl
    exact .pure (walk_lt (by omega) nextAfter_lt _ (by omega))

theorem runs_prevFrom (h : 1 ≤ tabs.stops.length) (col count : Nat) :
    Runs (tabs.prevFrom col count) (· < tabs.stops.length) := by
  apply Runs.ite
  · exact fun _ => .pure h
  · intro _
    apply Runs.bind (.sub h)
    rintro _ rfl
    exact .pure (walk_lt (by omega) prevBefore_lt _ (by omega))

theorem length_resize (tabs : TabStops) (cols : Nat) : (tabs.resize cols).stops.length = cols := by
  unfold resize
  split
  · rw [List.length_take]
    omega
  · rw [List.length_append, List.length_map, span, List.length_range']
    omega

theorem length_new (cols : Nat) : (new cols).stops.length = cols := by
  rw [new, List.length_map, List.length_range]

end TabStops

end Shux.Vt
