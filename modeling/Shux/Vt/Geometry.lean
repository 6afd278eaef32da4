/-
# Geometry of the terminal

The invariant of a terminal: both screens have the size the terminal says it has, every
row of both has exactly that many columns and holds whole characters only, cursor and
margins are inside, and what is frozen has the shape of what it froze. It holds of a new
terminal and is kept by every call and every resize. The operations are checked ones, so
that a run keeps the invariant says as well that no access in it is out of range.
-/

import Shux.Vt.Canvas
import Shux.Vt.Mirror

namespace Shux.Vt

open Checked Handler Option

/-- A grid in order, of a given size. -/
structure Grid.Shaped (g : Grid) (rows cols : Nat) : Prop where
  ok : g.Ok
  rows : g.rows = rows
  cols : g.cols = cols

/-- A cursor inside a grid of a given size. -/
structure Cursor.Inside (cursor : Cursor) (rows cols : Nat) : Prop where
  row : cursor.row < rows
  col : cursor.col < cols

/-- A cursor carried to where a resize put it. -/
def Cursor.moved (cursor : Cursor) : Option (Nat × Nat) → Cursor
  | some (row, col) => { cursor with row, col }
  | none => cursor

theorem Cursor.inside_clamp (cursor : Cursor) {rows cols : Nat} (hrows : 1 ≤ rows)
    (hcols : 1 ≤ cols) : (cursor.clamp rows cols).Inside rows cols :=
  ⟨by show min cursor.row (rows - 1) < rows; omega, by show min cursor.col (cols - 1) < cols; omega⟩

theorem Grid.Shaped.evolves {g g' : Grid} {rows cols : Nat} (h : g.Shaped rows cols)
    (hevolves : Grid.Evolves g g') : g'.Shaped rows cols :=
  ⟨hevolves.ok, hevolves.rows.trans h.rows, hevolves.cols.trans h.cols⟩

/-- The viewport of a grid, as a grid of its own. -/
theorem Grid.Shaped.clonePresentedViewport {g : Grid} {rows cols : Nat} (h : g.Shaped rows cols) :
    g.clonePresentedViewport.Shaped rows cols where
  ok := by
    refine ⟨?_, fun row hrow => h.ok.sound row (List.mem_of_mem_drop hrow), h.ok.dirty,
      h.ok.enabled⟩
    have hsb := h.ok.scrollbackLen_add
    show g.rows ≤ (g.raw.drop g.scrollbackLen).length
    rw [List.length_drop]
    omega
  rows := h.rows
  cols := h.cols

namespace Terminal

/-- The terminal is in order. -/
structure Ok (t : Terminal) : Prop where
  screen : t.toScreen.Ok
  rows : t.grid.rows = t.rows
  cols : t.grid.cols = t.cols
  parked : t.altGrid.isSome = t.modes.alternateScreen
  stash : ∀ g, t.altGrid = some g → g.Shaped t.rows t.cols
  altCursor : ∀ cursor, t.altCursor = some cursor → cursor.Inside t.rows t.cols
  canvas : t.modes.alternateScreen = true → t.grid.Canvas
  spare : ∀ g, t.altSpare = some g → g.Canvas
  balanced : t.graphics.Balanced
  frozenGrid : ∀ frozen, t.frozenGrid = some frozen → frozen.grid.Shaped t.rows t.cols
  frozenCursor : ∀ cursor, t.frozenCursor = some cursor → cursor.Inside t.rows t.cols
  unarmed : t.syncArmed = false → t.frozenGrid = none ∧ t.frozenCursor = none ∧
    t.frozenTitle = none ∧ t.frozenColors = none ∧ t.frozenAlt = none

variable {t : Terminal}

theorem freezeSlot_some {α : Type} {touched : Bool} {slot : Option α} {live a : α}
    (h : freezeSlot touched slot live = some a) : slot = some a ∨ a = live := by
  unfold freezeSlot at h
  split at h
  · cases h
    exact .inr rfl
  · exact .inl h

namespace Ok

section

variable (h : t.Ok)
include h

/-- The live grid has the size of the terminal. -/
theorem grid : t.grid.Shaped t.rows t.cols := ⟨h.screen.grid, h.rows, h.cols⟩

theorem cursor : t.cursor.Inside t.rows t.cols := ⟨h.rows ▸ h.screen.row, h.cols ▸ h.screen.col⟩

theorem one_le_rows : 1 ≤ t.rows := h.rows ▸ h.screen.rows

theorem one_le_cols : 1 ≤ t.cols := h.cols ▸ h.screen.cols

theorem freeze (touched : Touched) : (t.freeze touched).Ok := by
  unfold Terminal.freeze
  split
  · next harmed =>
    refine ⟨h.screen, h.rows, h.cols, h.parked, h.stash, h.altCursor, h.canvas, h.spare,
      h.balanced, ?_, ?_, fun hoff => ?_⟩
    · intro frozen hfrozen
      rcases freezeSlot_some hfrozen with hold | rfl
      · exact h.frozenGrid frozen hold
      · exact h.grid.clonePresentedViewport
    · intro cursor hcursor
      rcases freezeSlot_some hcursor with hold | rfl
      · exact h.frozenCursor cursor hold
      · exact h.cursor
    · exact absurd harmed (ne_true_of_eq_false hoff)
  · exact h

theorem freezeAltFlag : t.freezeAltFlag.Ok := by
  unfold Terminal.freezeAltFlag
  split
  · next harmed =>
    exact ⟨h.screen, h.rows, h.cols, h.parked, h.stash, h.altCursor, h.canvas, h.spare,
      h.balanced, h.frozenGrid, h.frozenCursor,
      fun hoff => absurd harmed (ne_true_of_eq_false hoff)⟩
  · exact h

theorem freezeWholePresentation : t.freezeWholePresentation.Ok := (h.freeze _).freezeAltFlag

theorem exists_parked (halt : t.modes.alternateScreen = true) :
    ∃ primary, t.altGrid = some primary :=
  Option.isSome_iff_exists.mp (h.parked.trans halt)

/-- Another live screen that an operation of the handler left. -/
theorem setScreen {h' : Handler} (hadv : Advances ⟨t.toScreen, .nothing⟩ h') :
    Ok { t with toScreen := h'.toScreen } where
  screen := hadv.ok
  rows := hadv.evolves.rows.trans h.rows
  cols := hadv.evolves.cols.trans h.cols
  parked := h.parked.trans hadv.alternate.symm
  stash := h.stash
  altCursor := h.altCursor
  canvas halt := (h.canvas (hadv.alternate.symm.trans halt)).evolves hadv.evolves
  spare := h.spare
  balanced := h.balanced
  frozenGrid := h.frozenGrid
  frozenCursor := h.frozenCursor
  unarmed := h.unarmed

theorem commit {h' : Handler} (hadv : Advances ⟨t.toScreen, .nothing⟩ h') : (t.commit h').Ok := by
  have hscreen : (t.freeze h'.touched).toScreen = t.toScreen := by rw [freeze_eq]
  refine (h.freeze h'.touched).setScreen ?_
  rw [hscreen]
  exact hadv

theorem sink {sink : GraphicsSink} (hsink : sink.Balanced) : Ok { t with graphics := sink } :=
  ⟨h.screen, h.rows, h.cols, h.parked, h.stash, h.altCursor, h.canvas, h.spare, hsink,
    h.frozenGrid, h.frozenCursor, h.unarmed⟩

theorem entered (parks : Bool) : (t.entered parks).Ok := by
  have hcanvas : (t.altCanvas.markAllDirty).Canvas := by
    rw [altCanvas_markAllDirty h.spare]
    have hnew := Grid.canvas_new t.grid.rows t.grid.cols
    exact hnew.evolves hnew.ok.markAllDirty
  have hsize : t.altCanvas.markAllDirty.rows = t.grid.rows ∧
      t.altCanvas.markAllDirty.cols = t.grid.cols := by
    rw [altCanvas_markAllDirty h.spare]
    exact ⟨rfl, rfl⟩
  rw [entered_eq]
  refine ⟨?_, hsize.1.trans h.rows, hsize.2.trans h.cols, rfl, ?_, ?_, fun _ => hcanvas, ?_,
    h.balanced.clearAlt, h.frozenGrid, h.frozenCursor, h.unarmed⟩
  · have hs := h.screen
    refine ⟨hcanvas.ok, hsize.1 ▸ hs.rows, hsize.2 ▸ hs.cols, ?_, ?_, hs.top, hsize.1 ▸ hs.bottom,
      ?_, hs.tabs.trans hsize.2.symm⟩
    · show (if parks then { Cursor.new with saved := t.cursor.saved } else t.cursor).row < _
      rw [hsize.1]
      split
      · exact hs.rows
      · exact hs.row
    · show (if parks then { Cursor.new with saved := t.cursor.saved } else t.cursor).col < _
      rw [hsize.2]
      split
      · exact hs.cols
      · exact hs.col
    · show ∀ row col, t.activeGraphemeCell = some (row, col) → _
      rw [hsize.1, hsize.2]
      exact hs.active
  · intro g hg
    cases hg
    exact h.grid
  · intro cursor hcursor
    cases parks with
    | false => cases hcursor
    | true =>
      cases hcursor
      exact h.cursor
  · intro g hg
    cases hg

theorem left (halt : t.modes.alternateScreen = true) (parks : Bool) : (t.left parks).Ok := by
  obtain ⟨primary, hprimary⟩ := h.exists_parked halt
  have hstash := h.stash primary hprimary
  have hmarked := hstash.evolves hstash.ok.markAllDirty
  rw [left_eq hprimary]
  have hcursor : (if parks then t.altCursor.getD t.cursor else t.cursor).Inside t.rows t.cols := by
    split
    · cases hcursor : t.altCursor with
      | none => exact h.cursor
      | some cursor => exact h.altCursor cursor hcursor
    · exact h.cursor
  refine ⟨?_, hmarked.rows, hmarked.cols, rfl, ?_, ?_, fun hfalse => ?_, ?_, h.balanced.clearAlt,
    h.frozenGrid, h.frozenCursor, h.unarmed⟩
  · have hs := h.screen
    have hrows := h.rows
    have hcols := h.cols
    refine ⟨hmarked.ok, ?_, ?_, ?_, ?_, hs.top, ?_, ?_, ?_⟩
    · rw [hmarked.rows]
      exact h.one_le_rows
    · rw [hmarked.cols]
      exact h.one_le_cols
    · rw [hmarked.rows]
      exact hcursor.row
    · rw [hmarked.cols]
      exact hcursor.col
    · rw [hmarked.rows, ← hrows]
      exact hs.bottom
    · rw [hmarked.rows, hmarked.cols, ← hrows, ← hcols]
      exact hs.active
    · rw [hmarked.cols, ← hcols]
      exact hs.tabs
  · intro g hg
    cases hg
  · intro cursor hcursor
    cases hcursor
  · cases hfalse
  · intro g hg
    dsimp only at hg
    split at hg
    · cases hg
      exact h.canvas halt
    · exact h.spare g hg

theorem markAllDirty : t.markAllDirty.Ok := by
  have hadv : Advances ⟨t.toScreen, .nothing⟩
      (Handler.setGrid ⟨t.toScreen, .nothing⟩ t.grid.markAllDirty) :=
    (h.screen.setGrid h.screen.grid.markAllDirty).toAdvances
  exact h.setScreen hadv

theorem setSyncMode (on : Bool) : (t.setSyncMode on).Ok := by
  have hadv : Advances ⟨t.toScreen, .nothing⟩
      ⟨{ t.toScreen with modes := { t.modes with synchronizedOutput := on } }, .nothing⟩ :=
    h.screen.same_advances ⟨rfl, rfl, rfl, rfl, rfl, rfl⟩ rfl rfl rfl
  exact h.setScreen hadv

theorem clearActive : Ok { t with activeGraphemeCell := none } := by
  have hadv : Advances ⟨t.toScreen, .nothing⟩
      (Handler.clearActiveGraphemeCell ⟨t.toScreen, .nothing⟩) :=
    h.screen.clearActiveGraphemeCell.toAdvances
  exact h.setScreen hadv

theorem clearResponses : Ok { t with responses := [] } := by
  have hadv : Advances ⟨t.toScreen, .nothing⟩ ⟨{ t.toScreen with responses := [] }, .nothing⟩ :=
    h.screen.same_advances ⟨rfl, rfl, rfl, rfl, rfl, rfl⟩ rfl rfl rfl
  exact h.setScreen hadv

theorem arm : Ok { t with syncArmed := true } :=
  ⟨h.screen, h.rows, h.cols, h.parked, h.stash, h.altCursor, h.canvas, h.spare, h.balanced,
    h.frozenGrid, h.frozenCursor, fun hoff => Bool.noConfusion hoff⟩

theorem releaseSyncPresentation : t.releaseSyncPresentation.Ok where
  screen := h.screen
  rows := h.rows
  cols := h.cols
  parked := h.parked
  stash := h.stash
  altCursor := h.altCursor
  canvas := h.canvas
  spare := h.spare
  balanced := h.balanced
  frozenGrid _ hfrozen := by cases hfrozen
  frozenCursor _ hcursor := by cases hcursor
  unarmed _ := ⟨rfl, rfl, rfl, rfl, rfl⟩

theorem hold : (t.setSynchronizedOutput true).Ok :=
  hold_cases (fun _ => h.setSyncMode true)
    (fun _ => h.markAllDirty.arm.freezeWholePresentation.setSyncMode true)
    fun _ => h.markAllDirty.arm.setSyncMode true

theorem release : (t.setSynchronizedOutput false).Ok :=
  (h.setSyncMode false).releaseSyncPresentation.markAllDirty

theorem rewind : t.rewind.Ok := by
  unfold Terminal.rewind
  dsimp only
  split
  · next halt => exact h.releaseSyncPresentation.left halt false
  · exact h.releaseSyncPresentation

/-- Bookkeeping of the window, the revision and the replies. -/
theorem stamped (eagerSyncFreeze : Bool) (syncOpenedNs syncBytes contentRevision : Nat)
    (syncHiddenClassA : Bool) :
    Ok { t with eagerSyncFreeze, syncOpenedNs, syncBytes, contentRevision, syncHiddenClassA } :=
  ⟨h.screen, h.rows, h.cols, h.parked, h.stash, h.altCursor, h.canvas, h.spare, h.balanced,
    h.frozenGrid, h.frozenCursor, h.unarmed⟩

end

end Ok

theorem alternate_freezeForSwitch (t : Terminal) :
    t.freezeForSwitch.modes.alternateScreen = t.modes.alternateScreen := by
  rw [freezeForSwitch, freezeForSwap, freezeAltFlag_eq, freeze_eq]

theorem preserves_ok : Preserves (fun _ => True) Ok where
  ok h := h.screen
  balanced h := h.balanced
  parked h := h.parked
  commit h hadv := h.commit hadv
  sink h hsink := h.sink hsink
  enter parks _ _ h := (h.freeze _).freezeAltFlag.entered parks
  leave {t} parks _ halt h :=
    (h.freeze _).freezeAltFlag.left (t.alternate_freezeForSwitch.trans halt) parks
  hold _ h := h.hold
  release _ h := h.release
  rewind _ h := h.rewind

/-! ## Resizing -/

/-- On the alternate screen it is the parked one that reflows, with the cursor left on it. -/
theorem resizeScreens_alternate {rows cols : Nat} {primary grid stash : Grid}
    {position : Option (Nat × Nat)} (halt : t.modes.alternateScreen = true)
    (hprimary : t.altGrid = some primary) (hgrid : t.grid.resizeCanvas rows cols = some grid)
    (hstash : primary.resizeWithCursor rows cols (t.altCursor.map fun c => (c.row, c.col)) =
      some (stash, position)) :
    t.resizeScreens rows cols = some { t with
      grid
      altGrid := some stash
      altCursor := t.altCursor.map fun c => (c.moved position).clamp rows cols } := by
  unfold Terminal.resizeScreens
  rw [if_pos halt, hgrid, hprimary]
  cases hcursor : t.altCursor with
  | none =>
    rw [hcursor, Option.map_none] at hstash
    simp only [bind_eq_bind, bind_some, hstash]
    rfl
  | some cursor =>
    rw [hcursor, Option.map_some] at hstash
    simp only [bind_eq_bind, bind_some, hstash]
    cases position <;> rfl

theorem resizeScreens_primary {rows cols : Nat} {grid : Grid} {position : Option (Nat × Nat)}
    (halt : t.modes.alternateScreen = false) (hnone : t.altGrid = none)
    (hgrid : t.grid.resizeWithCursor rows cols (some (t.cursor.row, t.cursor.col)) =
      some (grid, position)) :
    t.resizeScreens rows cols = some { t with grid, cursor := t.cursor.moved position } := by
  unfold Terminal.resizeScreens
  rw [hnone, if_neg (ne_true_of_eq_false halt), hgrid]
  cases position <;> rfl

/-- What a resize does to the two screens. It depends on nothing but them. -/
theorem Ok.resizeScreens (h : t.Ok) {rows cols : Nat} (hrows : 1 ≤ rows) (hcols : 1 ≤ cols) :
    ∃ grid cursor altGrid altCursor,
      (∀ u : Terminal, u.toScreen = t.toScreen → u.altGrid = t.altGrid →
        u.altCursor = t.altCursor →
        u.resizeScreens rows cols = some { u with grid, cursor, altGrid, altCursor }) ∧
      Grid.Relined (!t.modes.alternateScreen) t.grid rows cols grid ∧
      (t.modes.alternateScreen = true → grid.Canvas) ∧
      altGrid.isSome = t.altGrid.isSome ∧
      ∀ stash, altGrid = some stash → ∃ g, t.altGrid = some g ∧
        Grid.Relined true g rows cols stash := by
  cases halt : t.modes.alternateScreen with
  | true =>
    obtain ⟨primary, hprimary⟩ := h.exists_parked halt
    obtain ⟨grid, hgrid, hrelined⟩ := h.screen.grid.relined_canvas rows cols
    obtain ⟨grid', hgrid', hcanvas⟩ := (h.canvas halt).resizeCanvas rows cols
    obtain rfl : grid = grid' := Option.some.inj (hgrid.symm.trans hgrid')
    obtain ⟨⟨stash, position⟩, hstash, hstashed⟩ :=
      (h.stash primary hprimary).ok.relined hrows hcols (t.altCursor.map fun c => (c.row, c.col))
    refine ⟨grid, t.cursor, some stash,
      t.altCursor.map fun c => (c.moved position).clamp rows cols, ?_, hrelined,
      fun _ => hcanvas, ?_, ?_⟩
    · intro u hscreen haltGrid haltCursor
      rw [resizeScreens_alternate (hscreen ▸ halt) (haltGrid.trans hprimary) (hscreen ▸ hgrid)
        (haltCursor ▸ hstash), haltCursor, ← hscreen]
    · rw [hprimary]
      rfl
    · intro g hg
      cases hg
      exact ⟨primary, hprimary, hstashed⟩
  | false =>
    have hnone : t.altGrid = none := by
      rw [← not_isSome_iff_eq_none, h.parked, halt]
      exact Bool.noConfusion
    obtain ⟨⟨grid, position⟩, hgrid, hrelined⟩ :=
      h.screen.grid.relined hrows hcols (some (t.cursor.row, t.cursor.col))
    refine ⟨grid, t.cursor.moved position, none, t.altCursor, ?_, hrelined,
      fun hfalse => Bool.noConfusion hfalse, ?_, ?_⟩
    · intro u hscreen haltGrid haltCursor
      rw [resizeScreens_primary (hscreen ▸ halt) (haltGrid.trans hnone) (hscreen ▸ hgrid),
        ← hscreen, ← haltCursor, ← haltGrid.trans hnone]
    · rw [hnone]
    · intro g hg
      cases hg

/-- A resize to the same size leaves both screens alone, but for the cursor that is parked. -/
theorem Ok.resizeScreens_same (h : t.Ok) :
    ∃ altCursor, t.resizeScreens t.rows t.cols = some { t with altCursor } := by
  cases halt : t.modes.alternateScreen with
  | true =>
    obtain ⟨primary, hprimary⟩ := h.exists_parked halt
    obtain ⟨hstash, hrows, hcols⟩ := h.stash primary hprimary
    have hgrid := h.screen.grid.resizeCanvas_same
    rw [h.rows, h.cols] at hgrid
    have hparked : primary.resizeWithCursor t.rows t.cols
        (t.altCursor.map fun c => (c.row, c.col)) =
          some (primary, t.altCursor.map fun c => (c.row, c.col)) := by
      rw [← hrows, ← hcols]
      cases hcursor : t.altCursor with
      | none => exact hstash.resizeWithoutCursor_same
      | some cursor =>
        have hin := h.altCursor cursor hcursor
        exact hstash.resizeWithCursor_same (hrows.symm ▸ hin.row) (hcols.symm ▸ hin.col)
    rw [resizeScreens_alternate halt hprimary hgrid hparked, ← hprimary]
    exact ⟨_, rfl⟩
  | false =>
    have hnone : t.altGrid = none := by
      rw [← not_isSome_iff_eq_none, h.parked, halt]
      exact Bool.noConfusion
    have hgrid := h.screen.grid.resizeWithCursor_same h.screen.row h.screen.col
    rw [h.rows, h.cols] at hgrid
    exact ⟨t.altCursor, resizeScreens_primary halt hnone hgrid⟩

theorem Ok.same_of_resizeScreens (h : t.Ok) {rows cols : Nat} {grid : Grid} {cursor : Cursor}
    {altGrid : Option Grid} {altCursor : Option Cursor}
    (heq : t.resizeScreens rows cols = some { t with grid, cursor, altGrid, altCursor })
    (hrows : rows = t.rows) (hcols : cols = t.cols) : grid = t.grid ∧ cursor = t.cursor := by
  obtain ⟨altCursor', heq'⟩ := h.resizeScreens_same
  rw [hrows, hcols] at heq
  have hsame := Option.some.inj (heq.symm.trans heq')
  exact ⟨congrArg (fun t => t.grid) hsame, congrArg (fun t => t.cursor) hsame⟩

/-- Whether a resize changes the size. -/
def resizes (t : Terminal) (rows cols : Nat) : Bool := rows != t.rows || cols != t.cols

/-- What happens before the screens are resized. -/
def resizeStart (t : Terminal) (changed : Bool) : Terminal :=
  let t := if changed && t.syncArmed then { t.forceReleaseSync with syncHiddenClassA := false }
    else t
  { t with activeGraphemeCell := none, altSpare := if changed then none else t.altSpare }

/-- What happens after the screens are resized. -/
def resizeEnd (t : Terminal) (rows cols : Nat) (changed : Bool) : Terminal :=
  let t := { t with
    rows := rows
    cols := cols
    tabStops := t.tabStops.resize cols
    scrollRegion := ⟨0, rows - 1⟩
    cursor := t.cursor.clamp rows cols
    altCursor := t.altCursor.map fun cursor => cursor.clamp rows cols
    frozenCursor := t.frozenCursor.map fun cursor => cursor.clamp rows cols }
  if changed then t.recordClassABatch else t

theorem resize_eq (t : Terminal) (rows cols : Nat) : t.resize rows cols = (do
    let t' ← (t.resizeStart (t.resizes (max rows 1) (max cols 1))).resizeScreens (max rows 1)
      (max cols 1)
    pure (t'.resizeEnd (max rows 1) (max cols 1) (t.resizes (max rows 1) (max cols 1)))) :=
  rfl

theorem resizes_eq_false {rows cols : Nat} :
    t.resizes rows cols = false ↔ rows = t.rows ∧ cols = t.cols := by
  simp [resizes]

theorem size_resizeStart (t : Terminal) (changed : Bool) :
    (t.resizeStart changed).rows = t.rows ∧ (t.resizeStart changed).cols = t.cols := by
  unfold resizeStart
  dsimp only
  split <;> exact ⟨rfl, rfl⟩

theorem Ok.forceReleaseSync (h : t.Ok) : t.forceReleaseSync.Ok :=
  ((h.releaseSyncPresentation.setSyncMode false).stamped _ 0 0 _ _).markAllDirty

theorem Ok.resizeStart (h : t.Ok) (changed : Bool) : (t.resizeStart changed).Ok := by
  have hstart :
      (if changed && t.syncArmed then { t.forceReleaseSync with syncHiddenClassA := false }
      else t).Ok := by
    split
    · exact h.forceReleaseSync.stamped _ _ _ _ _
    · exact h
  unfold Terminal.resizeStart
  dsimp only
  generalize (if changed && t.syncArmed then { t.forceReleaseSync with syncHiddenClassA := false }
      else t) = t₁ at hstart
  have hcleared := hstart.clearActive
  refine ⟨hcleared.screen, hcleared.rows, hcleared.cols, hcleared.parked, hcleared.stash,
    hcleared.altCursor, hcleared.canvas, ?_, hcleared.balanced, hcleared.frozenGrid,
    hcleared.frozenCursor, hcleared.unarmed⟩
  intro g hg
  dsimp only at hg
  split at hg
  · cases hg
  · exact hcleared.spare g hg

/-- A change of size leaves no frozen frame. -/
theorem resizeStart_unarmed (t : Terminal) : (t.resizeStart true).syncArmed = false := by
  unfold Terminal.resizeStart
  cases harmed : t.syncArmed with
  | true => rfl
  | false => exact harmed

theorem Ok.resizeEnd (h : t.Ok) {rows cols : Nat} {grid : Grid} {cursor : Cursor}
    {altGrid : Option Grid} {altCursor : Option Cursor} (hrows : 1 ≤ rows) (hcols : 1 ≤ cols)
    (hframe : t.syncArmed = false ∨ rows = t.rows ∧ cols = t.cols)
    (hactive : t.activeGraphemeCell = none) (hgrid : grid.Shaped rows cols)
    (hcanvas : t.modes.alternateScreen = true → grid.Canvas)
    (hparked : altGrid.isSome = t.altGrid.isSome)
    (hstash : ∀ g, altGrid = some g → g.Shaped rows cols) (changed : Bool) :
    (resizeEnd { t with grid, cursor, altGrid, altCursor } rows cols changed).Ok := by
  have hscreen : Screen.Ok { t.toScreen with
      grid
      cursor := cursor.clamp rows cols
      tabStops := t.tabStops.resize cols
      scrollRegion := ⟨0, rows - 1⟩ } := by
    have hin := cursor.inside_clamp hrows hcols
    refine ⟨hgrid.ok, hgrid.rows.symm ▸ hrows, hgrid.cols.symm ▸ hcols, hgrid.rows.symm ▸ hin.row,
      hgrid.cols.symm ▸ hin.col, Nat.zero_le _, ?_, ?_, ?_⟩
    · show rows - 1 < grid.rows
      rw [hgrid.rows]
      omega
    · intro row col hcell
      cases hactive.symm.trans hcell
    · exact (TabStops.length_resize _ _).trans hgrid.cols.symm
  have hclamped {cursor : Option Cursor} : ∀ c, cursor.map (fun c => c.clamp rows cols) = some c →
      c.Inside rows cols := by
    intro c hc
    obtain ⟨c', -, rfl⟩ := Option.map_eq_some_iff.mp hc
    exact c'.inside_clamp hrows hcols
  have hend : Ok { t with
      grid
      cursor := cursor.clamp rows cols
      altGrid
      altCursor := altCursor.map fun cursor => cursor.clamp rows cols
      rows := rows
      cols := cols
      tabStops := t.tabStops.resize cols
      scrollRegion := ⟨0, rows - 1⟩
      frozenCursor := t.frozenCursor.map fun cursor => cursor.clamp rows cols } := by
    refine ⟨hscreen, hgrid.rows, hgrid.cols, hparked.trans h.parked, hstash, hclamped, hcanvas,
      h.spare, h.balanced, ?_, hclamped, fun hoff => ?_⟩
    · intro frozen hfrozen
      rcases hframe with hoff | ⟨rfl, rfl⟩
      · cases (h.unarmed hoff).1.symm.trans hfrozen
      · exact h.frozenGrid frozen hfrozen
    · obtain ⟨hgrid, hcursor, hrest⟩ := h.unarmed hoff
      refine ⟨hgrid, ?_, hrest⟩
      show t.frozenCursor.map _ = none
      rw [hcursor]
      rfl
  unfold Terminal.resizeEnd
  dsimp only
  split
  · exact hend.stamped _ _ _ _ _
  · exact hend

theorem Ok.resize (h : t.Ok) (rows cols : Nat) : Runs (t.resize rows cols) Ok := by
  have hrows : 1 ≤ max rows 1 := le_max_right _ _
  have hcols : 1 ≤ max cols 1 := le_max_right _ _
  have hstart := h.resizeStart (t.resizes (max rows 1) (max cols 1))
  obtain ⟨grid, cursor, altGrid, altCursor, heq, hrelined, hcanvas, hparked, hstash⟩ :=
    hstart.resizeScreens hrows hcols
  rw [resize_eq, heq _ rfl rfl rfl]
  refine .some (hstart.resizeEnd hrows hcols ?_ rfl
    ⟨hrelined.ok, hrelined.rows, hrelined.cols⟩ hcanvas hparked ?_ _)
  · cases hchanged : t.resizes (max rows 1) (max cols 1) with
    | true => exact .inl t.resizeStart_unarmed
    | false => exact .inr (resizes_eq_false.mp hchanged)
  · intro g hg
    obtain ⟨_, -, hstashed⟩ := hstash g hg
    exact ⟨hstashed.ok, hstashed.rows, hstashed.cols⟩

theorem ok_withConfig (rows cols : Nat) (config : GridConfig) :
    (withConfig rows cols config).Ok := by
  have hrows : 1 ≤ max rows 1 := le_max_right _ _
  have hcols : 1 ≤ max cols 1 := le_max_right _ _
  refine ⟨⟨Grid.ok_new _ _ _, hrows, hcols, hrows, hcols, Nat.zero_le _, ?_, ?_,
    TabStops.length_new _⟩, rfl, rfl, rfl, ?_, ?_, fun hfalse => Bool.noConfusion hfalse, ?_,
    ⟨ImageStore.balanced_empty, ImageStore.balanced_empty⟩, ?_, ?_,
    fun _ => ⟨rfl, rfl, rfl, rfl, rfl⟩⟩
  · show max rows 1 - 1 < max rows 1
    omega
  all_goals
    intros
    contradiction

theorem Ok.releaseExpiredSync (h : t.Ok) (now : Nat) : (t.releaseExpiredSync now).1.Ok := by
  unfold Terminal.releaseExpiredSync
  split
  · dsimp only
    split
    · exact h.forceReleaseSync.stamped _ _ _ _ _
    · exact h.forceReleaseSync.stamped _ _ _ _ _
  · exact h

theorem Ok.enterAlternateScreen (h : t.Ok) : t.enterAlternateScreen.Ok := by
  have hcleared := h.freezeWholePresentation.clearActive
  unfold Terminal.enterAlternateScreen
  dsimp only
  split
  · exact hcleared
  · exact hcleared.entered true

theorem Ok.leaveAlternateScreen (h : t.Ok) : t.leaveAlternateScreen.Ok := by
  have hcleared := h.freezeWholePresentation.clearActive
  unfold Terminal.leaveAlternateScreen
  dsimp only
  split
  · next halt => exact hcleared.left halt true
  · exact hcleared

theorem Ok.takeDirtyRegions (h : t.Ok) : t.takeDirtyRegions.1.Ok := by
  unfold Terminal.takeDirtyRegions
  cases hfrozen : t.frozenGrid with
  | some frozen =>
    have hshape := h.frozenGrid frozen hfrozen
    refine ⟨h.screen, h.rows, h.cols, h.parked, h.stash, h.altCursor, h.canvas, h.spare,
      h.balanced, ?_, h.frozenCursor, fun hoff => ?_⟩
    · intro frozen' hfrozen'
      cases hfrozen'
      exact ⟨hshape.ok.takeDirtyRegions, hshape.rows, hshape.cols⟩
    · cases hfrozen.symm.trans (h.unarmed hoff).1
  | none =>
    have hs := h.screen
    exact ⟨⟨hs.grid.takeDirtyRegions, hs.rows, hs.cols, hs.row, hs.col, hs.top, hs.bottom,
      hs.active, hs.tabs⟩, h.rows, h.cols, h.parked, h.stash, h.altCursor,
      fun halt => (h.canvas halt).takeDirtyRegions, h.spare, h.balanced,
      fun frozen hsome => h.frozenGrid frozen (hfrozen.trans hsome), h.frozenCursor,
      fun hoff => ⟨rfl, (h.unarmed hoff).2⟩⟩

theorem Ok.advances_clearScrollback (h : t.Ok) : Advances ⟨t.toScreen, .nothing⟩
    (Handler.setGrid ⟨t.toScreen, .nothing⟩ t.grid.clearScrollback) :=
  (h.screen.setGrid h.screen.grid.clearScrollback).toAdvances

theorem Ok.clearScrollback (h : t.Ok) : t.clearScrollback.Ok :=
  h.setScreen h.advances_clearScrollback

theorem Ok.releaseOverfull (h : t.Ok) : t.releaseOverfull.Ok := by
  unfold Terminal.releaseOverfull
  split
  · exact h.forceReleaseSync
  · exact h

/-- Whether a batch advances the revision. -/
def batchCounts (before after : Terminal) : Bool :=
  after.presentedColors != before.presentedColors ||
    (!after.syncArmed && (after.syncHiddenClassA || otherClassA before after))

/-- Counting a batch, written out. -/
theorem recordBatch_eq (before after : Terminal) :
    recordBatch before after = { after with
      contentRevision := after.contentRevision + (batchCounts before after).toNat
      syncHiddenClassA :=
        after.syncArmed && (after.syncHiddenClassA || otherClassA before after) } := by
  unfold recordBatch batchCounts recordClassABatch
  generalize (after.presentedColors != before.presentedColors) = colorsChanged
  generalize otherClassA before after = other
  obtain ⟨_, _, _, _, _, armed, _, _, _, _, _, _, _, _, _, _, _, hidden, _⟩ := after
  cases armed <;> cases hidden <;> cases colorsChanged <;> cases other <;> rfl

theorem Ok.recordBatch (h : t.Ok) (before : Terminal) : (recordBatch before t).Ok := by
  rw [recordBatch_eq]
  exact h.stamped _ _ _ _ _

theorem Ok.stampSync (h : t.Ok) (len now : Nat) : (t.stampSync len now).Ok := by
  unfold Terminal.stampSync
  split
  · exact h.stamped _ _ _ _ _
  · exact h.stamped _ _ _ _ _

variable [Crates]

theorem Ok.calls (h : t.Ok) (cs : List Call) : Runs (each cs t call) Ok :=
  preserves_ok.calls h cs fun _ _ _ _ => trivial

theorem Ok.processWithResponses (h : t.Ok) (len now : Nat) (calls : List Call) :
    Runs (t.processWithResponses len now calls) fun out => out.1.Ok := by
  apply Runs.bind (h.releaseOverfull.clearResponses.calls calls)
  intro after hafter
  exact .pure ((hafter.recordBatch _).stampSync len now)

theorem Ok.step (h : t.Ok) (step : Step) : Runs (t.step step) fun out => out.1.Ok := by
  cases step with
  | process len now calls => exact h.processWithResponses len now calls
  | resize rows cols =>
    apply Runs.bind (h.resize rows cols)
    exact fun t' h' => .pure h'
  | enterAlternateScreen => exact .pure h.enterAlternateScreen
  | leaveAlternateScreen => exact .pure h.leaveAlternateScreen
  | releaseExpiredSync now => exact .pure (h.releaseExpiredSync now)

theorem Ok.event (h : t.Ok) (event : Event) : Runs (t.event event) Ok := by
  cases event with
  | step step =>
    apply Runs.bind (h.step step)
    exact fun out hout => .pure hout
  | takeDirtyRegions => exact .pure h.takeDirtyRegions
  | clearScrollback => exact .pure h.clearScrollback

theorem Ok.run (h : t.Ok) (events : List Event) : Runs (t.run events) Ok := by
  apply Runs.each Ok h
  exact fun event _ t' h' => h'.event event

/-- The geometry of a terminal: its size is real, every line of its screens and its
history is as wide as it says, the viewport is all there, and the cursor, also after a
restore, and the margins are inside. -/
structure Sized (t : Terminal) : Prop where
  rows : 1 ≤ t.rows
  cols : 1 ≤ t.cols
  size : t.grid.rows = t.rows ∧ t.grid.cols = t.cols
  lines : t.rows ≤ t.grid.raw.length
  width : ∀ row ∈ t.grid.raw, row.cells.length = t.cols
  stashSize : ∀ g, t.altGrid = some g → g.rows = t.rows ∧ g.cols = t.cols
  stashLines : ∀ g, t.altGrid = some g → t.rows ≤ g.raw.length
  stashWidth : ∀ g, t.altGrid = some g → ∀ row ∈ g.raw, row.cells.length = t.cols
  cursor : t.cursor.row < t.rows ∧ t.cursor.col < t.cols
  parkedCursor : ∀ cursor, t.altCursor = some cursor → cursor.row < t.rows ∧ cursor.col < t.cols
  restored : (restoreCursorState ⟨t.toScreen, .nothing⟩).cursor.row < t.rows ∧
    (restoreCursorState ⟨t.toScreen, .nothing⟩).cursor.col < t.cols
  region : t.scrollRegion.top ≤ t.scrollRegion.bottom ∧ t.scrollRegion.bottom < t.rows

omit [Crates] in
theorem Ok.sized (h : t.Ok) : t.Sized where
  rows := h.one_le_rows
  cols := h.one_le_cols
  size := ⟨h.rows, h.cols⟩
  lines := h.rows ▸ h.screen.grid.rows_le
  width row hrow := (h.screen.grid.sound row hrow).length.trans h.cols
  stashSize g hg := ⟨(h.stash g hg).rows, (h.stash g hg).cols⟩
  stashLines g hg := (h.stash g hg).rows ▸ (h.stash g hg).ok.rows_le
  stashWidth g hg row hrow := ((h.stash g hg).ok.sound row hrow).length.trans (h.stash g hg).cols
  cursor := ⟨h.cursor.row, h.cursor.col⟩
  parkedCursor cursor hcursor :=
    ⟨(h.altCursor cursor hcursor).row, (h.altCursor cursor hcursor).col⟩
  restored := by
    have hadv : Advances ⟨t.toScreen, .nothing⟩ (restoreCursorState ⟨t.toScreen, .nothing⟩) :=
      h.screen.restoreCursorState.toAdvances
    refine ⟨?_, ?_⟩
    · exact lt_of_lt_of_eq hadv.ok.row (hadv.evolves.rows.trans h.rows)
    · exact lt_of_lt_of_eq hadv.ok.col (hadv.evolves.cols.trans h.cols)
  region := ⟨h.screen.top, h.rows ▸ h.screen.bottom⟩

/-- Every run completes, so nothing in it is out of range, and ends in a sized terminal. -/
theorem run_sized (rows cols : Nat) (config : GridConfig) (events : List Event) :
    ∃ t, (withConfig rows cols config).run events = some t ∧ t.Sized := by
  obtain ⟨t, hrun, hok⟩ := (ok_withConfig rows cols config).run events
  exact ⟨t, hrun, hok.sized⟩

end Terminal

/-- No character of the row is cut: a wide cell has its continuation right after it, a
continuation is the placeholder right after a wide cell, and every other cell is single. -/
structure Row.Unbroken (row : Row) : Prop where
  wide : ∀ i cell, row.cells[i]? = some cell → cell.width = 2 →
    row.cells[i + 1]? = some .wideContinuation
  continuation : ∀ i cell, row.cells[i]? = some cell → cell.width = 0 →
    cell = .wideContinuation ∧ ∃ j prev, i = j + 1 ∧ row.cells[j]? = some prev ∧ prev.width = 2
  single : ∀ cell ∈ row.cells, cell.width = 2 ∨ cell.width = 0 ∨ cell.width = 1

theorem Row.Sound.unbroken {row : Row} {cols : Nat} (h : row.Sound cols) : row.Unbroken where
  wide i cell hcell hwide := by
    have hzero := h.paired.whole.head i ((Row.widthAt_of_some hcell).trans hwide)
    have hlt : i + 1 < row.cells.length := Row.lt_length_of_widthAt (by omega)
    have hnext := List.getElem?_eq_getElem hlt
    rw [Row.widthAt_of_some hnext] at hzero
    rcases h.paired.regular.at hnext with hone | htwo | heq
    · omega
    · omega
    · rw [hnext, heq]
  continuation i cell hcell hzero := by
    have hwidth := (Row.widthAt_of_some hcell).trans hzero
    refine ⟨?_, ?_⟩
    · rcases h.paired.regular.at hcell with hone | htwo | heq
      · omega
      · omega
      · exact heq
    · cases i with
      | zero => exact absurd hwidth h.paired.whole.first
      | succ j =>
        have htwo := h.paired.whole.tail j hwidth
        have hlt : j < row.cells.length := Row.lt_length_of_widthAt (by omega)
        have hprev := List.getElem?_eq_getElem hlt
        exact ⟨j, _, rfl, hprev, (Row.widthAt_of_some hprev).symm.trans htwo⟩
  single cell hcell := by
    rcases h.paired.regular cell hcell with hone | htwo | rfl
    · exact .inr (.inr hone)
    · exact .inl htwo
    · exact .inr (.inl rfl)

/-- No run leaves half a wide character, on either screen or in the history. -/
theorem Terminal.run_unbroken [Crates] (rows cols : Nat) (config : GridConfig)
    (events : List Event) :
    ∃ t, (withConfig rows cols config).run events = some t ∧
      (∀ row ∈ t.grid.raw, row.Unbroken) ∧
      ∀ g, t.altGrid = some g → ∀ row ∈ g.raw, row.Unbroken := by
  obtain ⟨t, hrun, hok⟩ := (ok_withConfig rows cols config).run events
  refine ⟨t, hrun, fun row hrow => ?_, fun g hg row hrow => ?_⟩
  · exact (hok.screen.grid.sound row hrow).unbroken
  · exact ((hok.stash g hg).ok.sound row hrow).unbroken

end Shux.Vt
