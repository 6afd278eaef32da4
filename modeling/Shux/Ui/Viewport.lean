/-
# Where a pane is shown

A pane's grid can be taller than the rectangle that it is drawn into. What is drawn, where the
cursor is put and which cell a pointer names all follow from one row offset: the first row of the
grid that is shown, moved just far enough to keep the cursor in view.

Coordinates of the screen are `u16`, sizes of grids are not. Subtractions are checked ones.
-/

import Shux.Core.Layout
import Shux.Ui.Buffer
import Shux.Vt.Repaint

namespace Shux.Ui

open Checked Vt List

/-- The first row of a grid to show in so many rows. -/
def paneViewRowOffset (totalRows visibleRows cursorRow : Nat) : Checked Nat :=
  if visibleRows = 0 ∨ totalRows ≤ visibleRows then pure 0
  else do
    let maxOffset ← sub totalRows visibleRows
    if cursorRow < visibleRows then pure 0
    else do
      let offset ← sub (cursorRow + 1) visibleRows
      pure (min offset maxOffset)

/-- Where one pane sat in a frame and which slice of its grid it showed. -/
structure PaneView where
  rect : Rect
  rowOffset : Nat
  gridRows : Nat
  gridCols : Nat
  deriving DecidableEq

/-- The view that a terminal is drawn with inside a rectangle. -/
def PaneView.of (rect : Rect) (vt : Terminal) : Checked PaneView := do
  let grid := vt.presentedGrid
  let rowOffset ← paneViewRowOffset grid.rows rect.height vt.presentedCursor.row
  pure ⟨rect, rowOffset, grid.rows, grid.cols⟩

/-- This view at another offset, kept within the grid. -/
def PaneView.withRowOffset (view : PaneView) (rowOffset : Nat) : PaneView :=
  { view with rowOffset := min rowOffset (view.gridRows - view.rect.height) }

/-- `u16::try_from`. -/
def toU16 (n : Nat) : Option Nat := if n < 65536 then some n else none

/-- The 1-based grid cell that a pointer names in a view. -/
def paneGridCell (view : PaneView) (point : Nat × Nat) (clamp : Bool) :
    Checked (Option (Nat × Nat)) :=
  let (col, row) := point
  let rect := view.rect
  let shownRows := min (view.gridRows - view.rowOffset) rect.height
  let shownCols := min view.gridCols rect.width
  if shownRows = 0 ∨ shownCols = 0 then pure none
  else
    let x := col - rect.x
    let y := row - rect.y
    let onGrid := rect.x ≤ col ∧ rect.y ≤ row ∧ x < shownCols ∧ y < shownRows
    if ¬ onGrid ∧ clamp = false then pure none
    else do
      let lastCol ← sub shownCols 1
      let lastRow ← sub shownRows 1
      let x := min x lastCol + 1
      let y := view.rowOffset + min y lastRow + 1
      pure ((toU16 x).bind fun x => (toU16 y).map fun y => (x, y))

/-- Compose a pane's grid into the buffer through a view. -/
def composePane (b : FrameBuffer) (view : PaneView) (vt : Terminal) : Checked FrameBuffer :=
  let rect := view.rect
  let grid := vt.presentedGrid
  each (range rect.height) b fun b r =>
    let gridRow := view.rowOffset + r
    if grid.rows ≤ gridRow then pure b
    else do
      let row ← grid.visibleRow gridRow
      -- the loop over the columns breaks at the end of the grid
      each ((range rect.width).takeWhile fun c => c < grid.cols) b fun b c => do
        let cell ← index row.cells c
        pure (b.setCell (u16Add rect.x (c % 65536)) (u16Add rect.y (r % 65536))
          (.fromVtCellWithDefaults cell vt.presentedColors))

/-- `u16::saturating_add`. -/
def u16SaturatingAdd (a b : Nat) : Nat := min (a + b) 65535

/-- Where the terminal's cursor goes in a pane's rectangle. -/
def cursorTarget (b : FrameBuffer) (rect : Rect) (vt : Terminal) :
    Checked (Option (Nat × Nat)) := do
  let cur := vt.presentedCursor
  let rowOffset ← paneViewRowOffset vt.presentedGrid.rows rect.height cur.row
  let vy := min ((cur.row - rowOffset) % 65536) (rect.height - 1)
  let sx := u16SaturatingAdd rect.x (min (cur.col % 65536) (rect.width - 1))
  let sy := u16SaturatingAdd rect.y vy
  pure (if cur.visible ∧ sx < u16SaturatingAdd rect.x rect.width ∧
      sy < u16SaturatingAdd rect.y rect.height ∧ sx < b.width ∧ sy < b.height then
    some (sx, sy) else none)

/-- The offset of a view: it keeps the view within the grid and the cursor within the view. -/
theorem runs_paneViewRowOffset (totalRows visibleRows cursorRow : Nat) :
    Runs (paneViewRowOffset totalRows visibleRows cursorRow) fun offset =>
      (offset = 0 ∨ offset + visibleRows ≤ totalRows) ∧ offset ≤ cursorRow ∧
      (cursorRow < totalRows → 0 < visibleRows → cursorRow < offset + visibleRows) := by
  apply Runs.ite
  · rintro (hnone | hfits)
    · exact .pure ⟨.inl rfl, Nat.zero_le _, fun _ hpos => by omega⟩
    · exact .pure ⟨.inl rfl, Nat.zero_le _, fun _ _ => by omega⟩
  · intro hlarge
    apply Runs.bind (.sub (by omega))
    rintro maxOffset rfl
    apply Runs.ite
    · exact fun hnear => .pure ⟨.inl rfl, Nat.zero_le _, fun _ _ => by omega⟩
    · intro hfar
      apply Runs.bind (.sub (by omega))
      rintro offset rfl
      exact .pure ⟨.inr (by omega), by omega, fun _ _ => by omega⟩

/-- The view shows a cell of the grid at a point of the screen. -/
structure PaneView.ShowsAt (view : PaneView) (point : Nat × Nat) (r c : Nat) : Prop where
  rows : r < view.gridRows
  cols : c < view.gridCols
  first : view.rowOffset ≤ r
  height : r < view.rowOffset + view.rect.height
  width : c < view.rect.width
  point : point = (view.rect.x + c, view.rect.y + (r - view.rowOffset))

/-- The view is one of a terminal's grid. -/
structure PaneView.Views (view : PaneView) (vt : Terminal) : Prop where
  rows : view.gridRows = vt.presentedGrid.rows
  cols : view.gridCols = vt.presentedGrid.cols

/-- A pane's rectangle lies in the frame. -/
structure InFrame (rect : Rect) (b : FrameBuffer) : Prop where
  x : rect.x + rect.width ≤ b.width
  y : rect.y + rect.height ≤ b.height
  width : b.width < 65536
  height : b.height < 65536

theorem takeWhile_range (n k : Nat) :
    (range n).takeWhile (fun c => c < k) = range (min n k) := by
  induction n with
  | zero => rw [Nat.zero_min, range_zero, takeWhile_nil]
  | succ n ih =>
    rw [range_succ, takeWhile_append, ih]
    rcases Nat.lt_or_ge n k with hlt | hge
    · have hmin : min n k = n := by omega
      have hmin' : min (n + 1) k = n + 1 := by omega
      have hlast : [n].takeWhile (fun c => c < k) = [n] :=
        takeWhile_cons_of_pos (decide_eq_true hlt)
      rw [hmin, hmin', if_pos rfl, hlast, range_succ]
    · have hmin : min n k = k := by omega
      have hmin' : min (n + 1) k = k := by omega
      rw [hmin, hmin', length_range, length_range]
      have hlast : [n].takeWhile (fun c => c < k) = [] := takeWhile_cons_of_neg (by simpa using hge)
      split_ifs with heq
      · rw [hlast, append_nil, heq]
      · rfl

/-- The last round of a loop over a range. -/
theorem each_range_succ {σ : Type} (n : Nat) (s : σ) (body : σ → Nat → Checked σ) :
    each (range (n + 1)) s body = (each (range n) s body) >>= fun s => body s n := by
  rw [each, each, range_succ, foldlM_append]
  congr 1
  funext s
  rw [foldlM_cons]
  exact bind_pure _

variable {vt : Terminal} {b : FrameBuffer} {view : PaneView}

/-- A row of the grid goes to the buffer cell by cell. -/
theorem runs_composeRow (row : Row) (defaults : TerminalDefaultColors) (x y : Nat) (n : Nat)
    (hn : n ≤ row.cells.length) (hx : x + n ≤ 65536) :
    Runs (each (range n) b fun b c => do
      let cell ← index row.cells c
      pure (b.setCell (u16Add x (c % 65536)) y (.fromVtCellWithDefaults cell defaults)))
    fun b' => b'.width = b.width ∧ b'.height = b.height ∧
      ∀ col r, col < b.width → r < b.height → b'.cell col r =
        if r = y ∧ x ≤ col ∧ col < x + n then
          (row.cells[col - x]?).map fun cell => .fromVtCellWithDefaults cell defaults
        else b.cell col r := by
  induction n with
  | zero =>
    refine .pure ⟨rfl, rfl, fun col r _ _ => ?_⟩
    rw [if_neg (by omega)]
  | succ n ih =>
    rw [each_range_succ]
    apply Runs.bind (ih (by omega) (by omega))
    rintro b' ⟨hwidth, hheight, hcells⟩
    apply Runs.bind (.index (show n < row.cells.length by omega))
    intro cell hcell
    refine .pure ⟨?_, ?_, fun col r hcol hr => ?_⟩
    · rw [FrameBuffer.width_setCell, hwidth]
    · rw [FrameBuffer.height_setCell, hheight]
    · have hat : u16Add x (n % 65536) = x + n := by
        unfold u16Add
        omega
      rw [FrameBuffer.cell_setCell _ _ _ (hwidth ▸ hcol) (hheight ▸ hr), hcells col r hcol hr, hat]
      by_cases hnew : col = x + n ∧ r = y
      · obtain ⟨rfl, rfl⟩ := hnew
        rw [if_pos ⟨rfl, rfl⟩, if_pos ⟨rfl, Nat.le_add_right _ _, by omega⟩,
          Nat.add_sub_cancel_left, hcell]
        rfl
      · rw [if_neg hnew]
        by_cases hold : r = y ∧ x ≤ col ∧ col < x + n
        · rw [if_pos hold, if_pos ⟨hold.1, hold.2.1, by omega⟩]
        · rw [if_neg hold, if_neg (by omega)]

/-- The buffer after a pane was drawn: each cell shows the grid cell that the view has there, and
is as before where it has none. -/
theorem runs_composePane (hvt : vt.Ok) (hviews : view.Views vt) (hin : InFrame view.rect b) :
    Runs (composePane b view vt) fun b' => b'.width = b.width ∧ b'.height = b.height ∧
      (∀ col row r c, view.ShowsAt (col, row) r c → b'.cell col row =
        (vt.presentedGrid.cellAt r c).map fun cell =>
          .fromVtCellWithDefaults cell vt.presentedColors) ∧
      (∀ col row, col < b.width → row < b.height → (∀ r c, ¬ view.ShowsAt (col, row) r c) →
        b'.cell col row = b.cell col row) := by
  have hgrid := hvt.presentedGrid.ok
  obtain ⟨hx, hy, hwidth, hheight⟩ := hin
  -- after the first `n` rows
  have hrows : ∀ n, n ≤ view.rect.height → Runs (each (range n) b fun b r =>
      let gridRow := view.rowOffset + r
      if vt.presentedGrid.rows ≤ gridRow then pure b
      else do
        let row ← vt.presentedGrid.visibleRow gridRow
        each ((range view.rect.width).takeWhile fun c => c < vt.presentedGrid.cols) b
          fun b c => do
            let cell ← index row.cells c
            pure (b.setCell (u16Add view.rect.x (c % 65536)) (u16Add view.rect.y (r % 65536))
              (.fromVtCellWithDefaults cell vt.presentedColors)))
      fun b' => b'.width = b.width ∧ b'.height = b.height ∧
        ∀ col row, col < b.width → row < b.height → b'.cell col row =
          if view.rect.y ≤ row ∧ row < view.rect.y + n ∧
              view.rowOffset + (row - view.rect.y) < vt.presentedGrid.rows ∧ view.rect.x ≤ col ∧
              col < view.rect.x + min view.rect.width vt.presentedGrid.cols then
            (vt.presentedGrid.cellAt (view.rowOffset + (row - view.rect.y))
              (col - view.rect.x)).map fun cell => .fromVtCellWithDefaults cell vt.presentedColors
          else b.cell col row := by
    intro n
    induction n with
    | zero =>
      intro _
      refine .pure ⟨rfl, rfl, fun col row _ _ => ?_⟩
      rw [if_neg (by omega)]
    | succ n ih =>
      intro hn
      rw [each_range_succ]
      apply Runs.bind (ih (by omega))
      rintro b₁ ⟨hwidth₁, hheight₁, hcells₁⟩
      dsimp only
      apply Runs.ite
      · intro hpast
        refine .pure ⟨hwidth₁, hheight₁, fun col row hcol hrow => ?_⟩
        rw [hcells₁ col row hcol hrow]
        refine if_congr ?_ rfl rfl
        omega
      · intro hinside
        have hlt : vt.presentedGrid.scrollbackLen + (view.rowOffset + n) <
            vt.presentedGrid.raw.length := by
          have hsb := hgrid.scrollbackLen_add
          omega
        apply Runs.bind (.index hlt)
        intro line hline
        have hlength := (hgrid.sound line (mem_of_getElem? hline)).length
        have hat : u16Add view.rect.y (n % 65536) = view.rect.y + n := by
          unfold u16Add
          omega
        rw [takeWhile_range, hat]
        apply (runs_composeRow line vt.presentedColors view.rect.x (view.rect.y + n)
          (min view.rect.width vt.presentedGrid.cols) (by omega) (by omega)).mono
        rintro b₂ ⟨hwidth₂, hheight₂, hcells₂⟩
        refine ⟨hwidth₂.trans hwidth₁, hheight₂.trans hheight₁, fun col row hcol hrow => ?_⟩
        rw [hcells₂ col row (hwidth₁ ▸ hcol) (hheight₁ ▸ hrow), hcells₁ col row hcol hrow]
        by_cases hnew : row = view.rect.y + n ∧ view.rect.x ≤ col ∧
            col < view.rect.x + min view.rect.width vt.presentedGrid.cols
        · obtain ⟨rfl, hleft, hright⟩ := hnew
          have hoffset : view.rect.y + n - view.rect.y = n := by omega
          rw [if_pos ⟨rfl, hleft, hright⟩,
            if_pos ⟨by omega, by omega, by omega, hleft, hright⟩, hoffset]
          unfold Grid.cellAt
          rw [hline]
          rfl
        · rw [if_neg hnew]
          refine if_congr ?_ rfl rfl
          omega
  apply (hrows view.rect.height le_rfl).mono
  rintro b' ⟨hwidth', hheight', hcells⟩
  refine ⟨hwidth', hheight', ?_, ?_⟩
  · rintro col row r c ⟨hr, hc, hfirst, hlast, hwide, hpoint⟩
    rw [hviews.rows] at hr
    rw [hviews.cols] at hc
    obtain ⟨rfl, rfl⟩ := Prod.ext_iff.mp hpoint
    dsimp only
    have hoffset : view.rowOffset + (view.rect.y + (r - view.rowOffset) - view.rect.y) = r := by
      omega
    have hcol : view.rect.x + c - view.rect.x = c := by omega
    rw [hcells _ _ (by omega) (by omega), if_pos ⟨by omega, by omega, by omega, by omega, by omega⟩,
      hoffset, hcol]
  · intro col row hcol hrow hnone
    rw [hcells col row hcol hrow]
    refine if_neg fun hthere => hnone (view.rowOffset + (row - view.rect.y)) (col - view.rect.x) ?_
    have hrows := hviews.rows
    have hcols := hviews.cols
    refine ⟨by omega, by omega, by omega, by omega, by omega, Prod.ext ?_ ?_⟩
    · show col = view.rect.x + (col - view.rect.x)
      omega
    · show row = view.rect.y + (view.rowOffset + (row - view.rect.y) - view.rowOffset)
      omega

/-- How far apart two columns, or two rows, are. -/
def gap (m n : Nat) : Nat := (m - n) + (n - m)

theorem min_pred_lt {n value : Nat} (hn : 0 < n) : min value (n - 1) < n :=
  (min_le_right _ _).trans_lt (Nat.sub_one_lt hn.ne')

/-- Of `n` places from `a` on, the one a value is clamped to is the nearest. -/
theorem gap_clamp_le {a n k value : Nat} (hk : k < n) :
    gap (a + min (value - a) (n - 1)) value ≤ gap (a + k) value := by
  unfold gap
  omega

/-- The cell shown nearest to a point, by its column and by its row. -/
def PaneView.Nearest (view : PaneView) (point : Nat × Nat) (r c : Nat) : Prop :=
  ∃ near, view.ShowsAt near r c ∧ ∀ other r' c', view.ShowsAt other r' c' →
    gap near.1 point.1 ≤ gap other.1 point.1 ∧ gap near.2 point.2 ≤ gap other.2 point.2

/-- Which cell a pointer names. Only the conversion of a row beyond `u16` can lose one. -/
theorem runs_paneGridCell (view : PaneView) (col row : Nat) (clamp : Bool) :
    Runs (paneGridCell view (col, row) clamp) fun found =>
      view.rect.width < 65536 → view.gridRows < 65536 →
        match found with
        | some (gx, gy) => 0 < gx ∧ 0 < gy ∧ view.Nearest (col, row) (gy - 1) (gx - 1) ∧
            (clamp = false → view.ShowsAt (col, row) (gy - 1) (gx - 1))
        | none => (clamp = false → ∀ r c, ¬ view.ShowsAt (col, row) r c) ∧
            (clamp = true → ∀ other r c, ¬ view.ShowsAt other r c) := by
  unfold paneGridCell
  dsimp only
  apply Runs.ite
  · intro hempty
    have hnothing : ∀ other r c, ¬ view.ShowsAt other r c := by
      rintro other r c ⟨hr, hc, hfirst, hheight, hwidth, -⟩
      omega
    exact .pure fun _ _ => ⟨fun _ => hnothing _, fun _ => hnothing⟩
  intro hshown
  apply Runs.ite
  · rintro ⟨hoff, hclamp⟩
    refine .pure fun _ _ => ⟨fun _ r c => ?_, fun hclamp' => ?_⟩
    · rintro ⟨hr, hc, hfirst, hheight, hwidth, hpoint⟩
      obtain ⟨hcol, hrow⟩ := Prod.mk.inj hpoint
      omega
    · rw [hclamp] at hclamp'
      cases hclamp'
  intro hon
  have hposx : 0 < min view.gridCols view.rect.width := by omega
  have hposy : 0 < min (view.gridRows - view.rowOffset) view.rect.height := by omega
  apply Runs.bind (.sub hposx)
  rintro lastCol rfl
  apply Runs.bind (.sub hposy)
  rintro lastRow rfl
  refine .pure fun hwidth hrows => ?_
  obtain ⟨x, hx⟩ : ∃ x, x = min (col - view.rect.x) (min view.gridCols view.rect.width - 1) :=
    ⟨_, rfl⟩
  obtain ⟨y, hy⟩ : ∃ y, y = min (row - view.rect.y)
    (min (view.gridRows - view.rowOffset) view.rect.height - 1) := ⟨_, rfl⟩
  rw [← hx, ← hy]
  unfold toU16
  have hcols := lt_min_iff.mp (hx ▸ min_pred_lt hposx)
  have hlines := lt_min_iff.mp (hy ▸ min_pred_lt hposy)
  rw [Nat.lt_sub_iff_add_lt'] at hlines
  rw [if_pos ((Nat.succ_le_of_lt hcols.2).trans_lt hwidth),
    if_pos ((Nat.succ_le_of_lt hlines.1).trans_lt hrows)]
  have hshows : view.ShowsAt (view.rect.x + x, view.rect.y + y) (view.rowOffset + y) x :=
    ⟨hlines.1, hcols.1, Nat.le_add_right _ _, Nat.add_lt_add_left hlines.2 _, hcols.2,
      Prod.ext rfl (by rw [Nat.add_sub_cancel_left])⟩
  refine ⟨Nat.succ_pos _, Nat.succ_pos _, ?_, fun hclamp => ?_⟩
  · refine ⟨_, hshows, ?_⟩
    rintro other r' c' ⟨hr, hc, hfirst, hheight, hwide, hpoint⟩
    subst hpoint
    rw [hx, hy]
    clear hx hy hon hshown hposx hposy
    exact ⟨gap_clamp_le (by omega), gap_clamp_le (by omega)⟩
  · have hat : view.rect.x ≤ col ∧ view.rect.y ≤ row ∧
        col - view.rect.x < min view.gridCols view.rect.width ∧
        row - view.rect.y < min (view.gridRows - view.rowOffset) view.rect.height := by
      by_contra hoff
      exact hon ⟨hoff, hclamp⟩
    have hpoint : (col, row) = (view.rect.x + x, view.rect.y + y) := by
      rw [hx, hy, Nat.min_eq_left (Nat.le_sub_one_of_lt hat.2.2.1),
        Nat.min_eq_left (Nat.le_sub_one_of_lt hat.2.2.2), Nat.add_sub_cancel' hat.1,
        Nat.add_sub_cancel' hat.2.1]
    rw [hpoint]
    exact hshows

/-- The view of a terminal keeps the cursor's row in sight. -/
theorem runs_of (rect : Rect) (vt : Terminal) :
    Runs (PaneView.of rect vt) fun view => view.rect = rect ∧ view.Views vt ∧
      Runs (paneViewRowOffset vt.presentedGrid.rows rect.height vt.presentedCursor.row)
        fun offset => view.rowOffset = offset := by
  obtain ⟨offset, hoffset, -⟩ := runs_paneViewRowOffset vt.presentedGrid.rows rect.height
    vt.presentedCursor.row
  unfold PaneView.of
  dsimp only
  rw [hoffset]
  exact ⟨⟨rect, offset, vt.presentedGrid.rows, vt.presentedGrid.cols⟩, rfl, rfl, ⟨rfl, rfl⟩,
    Runs.some rfl⟩

/-- The presented cursor is inside the terminal. -/
theorem presentedCursor_inside (h : vt.Ok) : vt.presentedCursor.Inside vt.rows vt.cols := by
  unfold Terminal.presentedCursor
  cases hfrozen : vt.frozenCursor with
  | none => exact h.cursor
  | some cursor => exact h.frozenCursor cursor hfrozen

/-- A place within a part of the screen is where clamping and saturation leave it. -/
theorem clamped_place {a n limit place : Nat} (hfits : a + n ≤ limit) (hlimit : limit < 65536)
    (hplace : place < n) :
    u16SaturatingAdd a (min (place % 65536) (n - 1)) = a + place ∧
      a + place < u16SaturatingAdd a n ∧ a + place < limit := by
  have hmin : min (place % 65536) (n - 1) = place := by
    rw [Nat.mod_eq_of_lt (by omega)]
    exact Nat.min_eq_left (Nat.le_sub_one_of_lt hplace)
  unfold u16SaturatingAdd
  rw [hmin]
  omega

/-- The cursor goes where the view shows the cell under it. -/
theorem runs_cursorTarget {rect : Rect} (hin : InFrame rect b)
    (hcursor : vt.presentedCursor.Inside vt.presentedGrid.rows vt.presentedGrid.cols)
    (hview : PaneView.of rect vt = some view) :
    Runs (cursorTarget b rect vt) fun target =>
      (vt.presentedCursor.visible = true → vt.presentedCursor.col < rect.width →
        0 < rect.height → target.isSome = true) ∧
      ∀ point, target = some point → vt.presentedCursor.col < rect.width →
        view.ShowsAt point vt.presentedCursor.row vt.presentedCursor.col := by
  obtain ⟨view', hview', hrect, hviews, hsame⟩ := runs_of rect vt
  cases hview.symm.trans hview'
  obtain ⟨offset, hoffset, hkeeps, hle, hsight⟩ := runs_paneViewRowOffset vt.presentedGrid.rows
    rect.height vt.presentedCursor.row
  have hat : view.rowOffset = offset := by
    obtain ⟨offset', hoffset', hoffset''⟩ := hsame
    cases hoffset.symm.trans hoffset'
    exact hoffset''
  obtain ⟨hx, hy, hwidth, hheight⟩ := hin
  obtain ⟨hrow, hcol⟩ := hcursor
  have hbelow : 0 < rect.height → offset ≤ vt.presentedCursor.row ∧
      vt.presentedCursor.row - offset < rect.height :=
    fun htall => ⟨hle, by have := hsight hrow htall; omega⟩
  unfold cursorTarget
  dsimp only
  rw [hoffset]
  refine .pure ⟨fun hvisible hwide htall => ?_, ?_⟩
  · obtain ⟨hseen, hshort⟩ := hbelow htall
    obtain ⟨hsx, hsx', hsx''⟩ := clamped_place hx hwidth hwide
    obtain ⟨hsy, hsy', hsy''⟩ := clamped_place hy hheight hshort
    rw [hsx, hsy, if_pos ⟨hvisible, hsx', hsy', hsx'', hsy''⟩]
    rfl
  · intro point htarget hwide
    have htall : 0 < rect.height := by
      by_contra hflat
      rw [if_neg] at htarget
      · cases htarget
      · rintro ⟨-, -, hlt, -, -⟩
        rw [Nat.eq_zero_of_not_pos hflat] at hlt
        exact absurd hlt (not_lt.mpr (min_le_min_right _ (Nat.add_le_add_left (Nat.zero_le _) _)))
    obtain ⟨hseen, hshort⟩ := hbelow htall
    rw [(clamped_place hx hwidth hwide).1, (clamped_place hy hheight hshort).1] at htarget
    split_ifs at htarget
    cases htarget
    refine ⟨hviews.rows ▸ hrow, hviews.cols ▸ hcol, hat ▸ hle, ?_, hrect ▸ hwide, ?_⟩
    · rw [hat, hrect]
      exact hsight hrow htall
    · rw [hat, hrect]

/-- Content, cursor and pointers agree. The cursor of a terminal is put on the screen cell that
shows the grid cell under it. A pointer names the grid cell that was drawn under it and nothing
where none was drawn, and the clamped one the cell drawn nearest. No subtraction underflows,
whatever the sizes are. A terminal has the size of its PTY, which is a pair of `u16`. -/
theorem viewport_agrees (hvt : vt.Ok) (hsize : vt.rows < 65536) {rect : Rect}
    (hin : InFrame rect b) :
    (∃ view b' target, PaneView.of rect vt = some view ∧ composePane b view vt = some b' ∧
      cursorTarget b rect vt = some target ∧
      (vt.presentedCursor.visible = true → vt.presentedCursor.col < rect.width →
        0 < rect.height → target.isSome = true) ∧
      ∀ sx sy, target = some (sx, sy) → vt.presentedCursor.col < rect.width →
        view.ShowsAt (sx, sy) vt.presentedCursor.row vt.presentedCursor.col ∧
        b'.cell sx sy = (vt.presentedGrid.cellAt vt.presentedCursor.row
          vt.presentedCursor.col).map fun cell => .fromVtCellWithDefaults cell vt.presentedColors) ∧
    (∀ view, view.rect = rect → view.Views vt → ∃ b', composePane b view vt = some b' ∧
      (∀ col row, col < b.width → row < b.height → ∃ found,
        paneGridCell view (col, row) false = some found ∧
        match found with
        | some (gx, gy) => 0 < gx ∧ 0 < gy ∧ view.ShowsAt (col, row) (gy - 1) (gx - 1) ∧
            b'.cell col row = (vt.presentedGrid.cellAt (gy - 1) (gx - 1)).map fun cell =>
              .fromVtCellWithDefaults cell vt.presentedColors
        | none => (∀ r c, ¬ view.ShowsAt (col, row) r c) ∧ b'.cell col row = b.cell col row) ∧
      ∀ col row, ∃ found, paneGridCell view (col, row) true = some found ∧
        match found with
        | some (gx, gy) => 0 < gx ∧ 0 < gy ∧ view.Nearest (col, row) (gy - 1) (gx - 1)
        | none => ∀ other r c, ¬ view.ShowsAt other r c) ∧
    (∀ totalRows visibleRows cursorRow,
      (paneViewRowOffset totalRows visibleRows cursorRow).isSome = true) ∧
    ∀ view point clamp, (paneGridCell view point clamp).isSome = true := by
  have hshaped := hvt.presentedGrid
  refine ⟨?_, ?_, ?_, ?_⟩
  · obtain ⟨view, hview, hrect, hviews, -⟩ := runs_of rect vt
    obtain ⟨b', hb', -, -, hcells, -⟩ := runs_composePane hvt hviews (hrect ▸ hin)
    have hcursor : vt.presentedCursor.Inside vt.presentedGrid.rows vt.presentedGrid.cols := by
      rw [hshaped.rows, hshaped.cols]
      exact presentedCursor_inside hvt
    obtain ⟨target, htarget, hthere, hshows⟩ := runs_cursorTarget hin hcursor hview
    refine ⟨view, b', target, hview, hb', htarget, hthere, fun sx sy hpoint hwide => ?_⟩
    have hat := hshows (sx, sy) hpoint hwide
    exact ⟨hat, hcells sx sy _ _ hat⟩
  · intro view hrect hviews
    have hwidth : view.rect.width < 65536 := by
      rw [hrect]
      have hx := hin.x
      have hlt := hin.width
      omega
    have hrows : view.gridRows < 65536 := by
      rw [hviews.rows, hshaped.rows]
      exact hsize
    obtain ⟨b', hb', -, -, hcells, hothers⟩ := runs_composePane hvt hviews (hrect ▸ hin)
    refine ⟨b', hb', fun col row hcol hrow => ?_, fun col row => ?_⟩
    · obtain ⟨found, hfound, hnames⟩ := runs_paneGridCell view col row false
      refine ⟨found, hfound, ?_⟩
      cases found with
      | none =>
        obtain ⟨hnone, -⟩ := hnames hwidth hrows
        exact ⟨hnone rfl, hothers col row hcol hrow (hnone rfl)⟩
      | some cell =>
        obtain ⟨hx, hy, -, hshows⟩ := hnames hwidth hrows
        exact ⟨hx, hy, hshows rfl, hcells col row _ _ (hshows rfl)⟩
    · obtain ⟨found, hfound, hnames⟩ := runs_paneGridCell view col row true
      refine ⟨found, hfound, ?_⟩
      cases found with
      | none => exact (hnames hwidth hrows).2 rfl
      | some cell =>
        obtain ⟨hx, hy, hnearest, -⟩ := hnames hwidth hrows
        exact ⟨hx, hy, hnearest⟩
  · intro totalRows visibleRows cursorRow
    obtain ⟨offset, hoffset, -⟩ := runs_paneViewRowOffset totalRows visibleRows cursorRow
    rw [hoffset]
    rfl
  · rintro view ⟨col, row⟩ clamp
    obtain ⟨found, hfound, -⟩ := runs_paneGridCell view col row clamp
    rw [hfound]
    rfl

/-- A terminal of three rows in a rectangle of two. -/
theorem viewport_agrees_sample :
    (paneGridCell ⟨⟨1, 1, 4, 2⟩, 1, 3, 4⟩ (2, 2) false = some (some (2, 3))) ∧
    ∃ view b' target, PaneView.of ⟨1, 1, 4, 2⟩ (Terminal.withConfig 3 4 .default) = some view ∧
      composePane (.new 6 4) view (Terminal.withConfig 3 4 .default) = some b' ∧
      cursorTarget (.new 6 4) ⟨1, 1, 4, 2⟩ (Terminal.withConfig 3 4 .default) = some target := by
  have hin : InFrame ⟨1, 1, 4, 2⟩ (.new 6 4) := ⟨by decide, by decide, by decide, by decide⟩
  obtain ⟨⟨view, b', target, hview, hb', htarget, -⟩, -⟩ :=
    viewport_agrees (Terminal.ok_withConfig 3 4 .default) (by decide) hin
  exact ⟨by decide, view, b', target, hview, hb', htarget⟩

end Shux.Ui
