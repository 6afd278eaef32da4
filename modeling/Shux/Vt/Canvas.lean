/-
# The canvas of the alternate screen

Leaving the alternate screen retires its grid, and entering it again takes the grid back.
A grid nothing was written to is taken back as it is, on the word of its write tally. The
lemmas here say why that is right: while the tally stands at zero, such a grid differs
from a new one in nothing that the repaint on entry does not overwrite, through every
operation and every resize.
-/

import Shux.Vt.Terminal
import Shux.Vt.Resize

namespace Shux.Vt

open Checked List DirtyState

theorem isBlank_new (cols : Nat) : (Row.new cols).isBlank = true := by
  rw [Row.isBlank, all_eq_true]
  intro cell hcell
  rw [eq_of_mem_replicate hcell]
  decide

theorem trimBlankBack_replicate (n m cols : Nat) :
    trimBlankBack n (List.replicate m (Row.new cols)) = List.replicate (m - n) (Row.new cols) := by
  induction n generalizing m with
  | zero => rfl
  | succ n ih =>
    rw [trimBlankBack]
    cases m with
    | zero => simp
    | succ m =>
      have hlast : (List.replicate (m + 1) (Row.new cols)).getLast?.any Row.isBlank = true := by
        rw [List.getLast?_replicate, if_neg (Nat.succ_ne_zero m)]
        exact isBlank_new cols
      rw [if_pos hlast, dropLast_replicate, ih]
      congr 1
      omega

theorem padRows_replicate (m rows cols : Nat) :
    padRows (List.replicate m (Row.new cols)) rows cols =
      List.replicate (max rows m) (Row.new cols) := by
  rw [padRows, length_replicate, ← replicate_add]
  congr 1
  omega

theorem resize_replicate {α : Type} (m n : Nat) (a : α) :
    Checked.resize (List.replicate m a) n a = List.replicate n a := by
  rw [Checked.resize, take_replicate, length_replicate, ← replicate_add]
  congr 1
  omega

/-- There is nothing to repair in a blank row. -/
theorem sanitizeWidePairs_new (cols : Nat) (bg : Color) :
    (Row.new cols).sanitizeWidePairs bg = some (Row.new cols) := by
  have hloop (is : List Nat) (his : ∀ i ∈ is, i < cols) :
      each is (Row.new cols).cells (Row.sanitizeCell bg) = some (Row.new cols).cells := by
    induction is with
    | nil => rfl
    | cons i is ih =>
      have hcell : Row.sanitizeCell bg (Row.new cols).cells i = some (Row.new cols).cells := by
        unfold Row.sanitizeCell index Row.new
        rw [List.getElem?_replicate, if_pos (his i mem_cons_self)]
        rfl
      rw [each, foldlM_cons, hcell]
      exact ih fun j hj => his j (mem_cons_of_mem _ hj)
  unfold Row.sanitizeWidePairs
  rw [hloop]
  · rfl
  · intro i hi
    rw [mem_span, Row.new, length_replicate] at hi
    exact hi.2

namespace Grid

variable {g g' : Grid} {newRows newCols : Nat}

/-- The grid has the contents of a new one. -/
structure Unwritten (g : Grid) : Prop where
  raw : g.raw = List.replicate g.rows (Row.new g.cols)
  placements : g.placements = []
  placedBytes : g.placedBytes = 0
  evicted : g.evicted = 0
  fullRows : g.dirty.fullRows = List.replicate g.rows false
  marks : g.dirty.rows = List.replicate g.rows none

theorem unwritten_new (rows cols : Nat) (config : GridConfig) : (new rows cols config).Unwritten :=
  ⟨rfl, rfl, rfl, rfl, rfl, rfl⟩

theorem Unwritten.quiet (h : g.Unwritten) (hevolves : Evolves g g') (hquiet : Quiet g g') :
    g'.Unwritten := by
  have hlen : g.raw.length = g.rows := by rw [h.raw, length_replicate]
  obtain ⟨hraw, hevicted⟩ := hquiet.raw hlen
  obtain ⟨hplacements, hbytes⟩ := hquiet.placements h.placements
  refine ⟨?_, hplacements, hbytes.trans h.placedBytes, hevicted.trans h.evicted, ?_, ?_⟩
  · rw [hraw, h.raw, hevolves.rows, hevolves.cols]
  · rw [hquiet.marks.1, h.fullRows, hevolves.rows]
  · rw [hquiet.marks.2, h.marks, hevolves.rows]

theorem Unwritten.takeDirtyRegions (h : g.Unwritten) : g.takeDirtyRegions.1.Unwritten := by
  refine ⟨h.raw, h.placements, h.placedBytes, h.evicted, ?_, ?_⟩
  · unfold Grid.takeDirtyRegions DirtyState.take
    dsimp only
    split
    · exact h.fullRows
    · rw [h.fullRows, map_replicate]
  · unfold Grid.takeDirtyRegions DirtyState.take
    dsimp only
    split
    · exact h.marks
    · rw [h.marks, map_replicate]

theorem Unwritten.resizeCols (h : g.Unwritten) (newCols : Nat) :
    Runs (g.resizeCols newCols) fun g' =>
      g' = { g with raw := List.replicate g.rows (Row.new newCols), cols := newCols } := by
  apply Runs.ite
  · rintro rfl
    apply Runs.pure
    rw [← h.raw]
  · intro _
    have hrow : ∀ row ∈ g.raw, Runs ((row.resize newCols .empty).sanitizeWidePairs .default)
        fun row' => row' = Row.new newCols := by
      intro row hrow
      rw [h.raw] at hrow
      rw [eq_of_mem_replicate hrow]
      have hresize : (Row.new g.cols).resize newCols .empty = Row.new newCols := by
        rw [Row.resize, Row.new, resize_replicate]
        rfl
      rw [hresize, sanitizeWidePairs_new]
      exact .some rfl
    apply Runs.bind (.mapM (S := fun _ row' => row' = Row.new newCols) hrow)
    intro raw hraw
    apply Runs.pure
    have hlen : raw.length = g.rows := by rw [← hraw.length_eq, h.raw, length_replicate]
    have hall : ∀ row ∈ raw, row = Row.new newCols := by
      intro row hrow
      obtain ⟨i, hi, rfl⟩ := getElem_of_mem hrow
      exact hraw.get (hraw.length_eq.symm ▸ hi) hi
    rw [eq_replicate_iff.mpr ⟨hlen, hall⟩]

theorem runs_resizeRows_replicate (hraw : g.raw = List.replicate g.rows (Row.new g.cols))
    (newRows : Nat) :
    Runs (g.resizeRows newRows) fun g' =>
      g' = { g with raw := List.replicate newRows (Row.new g.cols), rows := newRows } := by
  apply Runs.ite
  · intro hlt
    apply Runs.bind (.sub hlt.le)
    rintro _ rfl
    apply Runs.pure
    rw [hraw, trimBlankBack_replicate, padRows_replicate]
    congr 2
    omega
  · intro hge
    apply Runs.ite
    · intro hgt
      apply Runs.bind (.sub hgt.le)
      rintro _ rfl
      apply Runs.bind (.sub (min_le_left _ _))
      rintro _ rfl
      apply Runs.pure
      rw [scrollbackLen, hraw, length_replicate, ← replicate_add]
      congr 2
      omega
    · intro hle
      have heq : newRows = g.rows := by omega
      apply Runs.pure
      rw [heq, ← hraw]

/-- A canvas nothing was written to is a blank canvas at every size. -/
theorem Unwritten.resizeCanvas (h : g.Unwritten) (newRows newCols : Nat) :
    Runs (g.resizeCanvas newRows newCols) Unwritten := by
  apply Runs.bind (h.resizeCols newCols)
  rintro _ rfl
  apply Runs.bind (runs_resizeRows_replicate rfl newRows)
  rintro _ rfl
  apply Runs.pure
  have hdirty (dirty : DirtyState) : dirty.markAll.fullRows = dirty.fullRows ∧
      dirty.markAll.rows = dirty.rows := by
    unfold markAll
    split <;> exact ⟨rfl, rfl⟩
  refine ⟨rfl, h.placements, h.placedBytes, h.evicted, ?_, ?_⟩
  · have hrows : (g.dirty.resizeRows newRows).fullRows = List.replicate newRows false := by
      rw [DirtyState.resizeRows, h.fullRows, resize_replicate]
    dsimp only
    split
    · exact (hdirty _).1.trans hrows
    · exact hrows
  · have hrows : (g.dirty.resizeRows newRows).rows = List.replicate newRows none := by
      rw [DirtyState.resizeRows, h.marks, resize_replicate]
    dsimp only
    split
    · exact (hdirty _).2.trans hrows
    · exact hrows

/-- A grid of the alternate screen: its tally tells whether it was written to. -/
structure Canvas (g : Grid) : Prop where
  ok : g.Ok
  config : g.config = altGridConfig
  blank : g.mutations = 0 → g.Unwritten

theorem ok_new (rows cols : Nat) (config : GridConfig) : (new rows cols config).Ok where
  rows_le := length_replicate.ge
  sound row hrow := by
    rw [eq_of_mem_replicate hrow]
    exact Row.sound_new cols
  dirty := fits_new rows cols config.trackDirty
  enabled := rfl

theorem canvas_new (rows cols : Nat) : (new rows cols altGridConfig).Canvas :=
  ⟨ok_new rows cols altGridConfig, rfl, fun _ => unwritten_new rows cols altGridConfig⟩

theorem Canvas.evolves (h : g.Canvas) (hevolves : Evolves g g') : g'.Canvas where
  ok := hevolves.ok
  config := hevolves.config.trans h.config
  blank hzero := by
    have htally := hevolves.tally
    exact (h.blank (by omega)).quiet hevolves (hevolves.quiet (by omega))

theorem Ok.takeDirtyRegions (h : g.Ok) : g.takeDirtyRegions.1.Ok :=
  ⟨h.rows_le, h.sound, h.dirty.take, (enabled_take _ _ _).trans h.enabled⟩

theorem Canvas.takeDirtyRegions (h : g.Canvas) : g.takeDirtyRegions.1.Canvas :=
  ⟨h.ok.takeDirtyRegions, h.config, fun hzero => (h.blank hzero).takeDirtyRegions⟩

theorem Canvas.resizeCanvas (h : g.Canvas) (newRows newCols : Nat) :
    Runs (g.resizeCanvas newRows newCols) Canvas := by
  obtain ⟨g', hg', hresized, -⟩ := h.ok.resizeCanvas newRows newCols
  rw [hg']
  refine .some ⟨hresized.ok, hresized.config.trans h.config, fun hzero => ?_⟩
  obtain ⟨g'', hg'', hunwritten⟩ :=
    (h.blank (hresized.mutations.symm.trans hzero)).resizeCanvas newRows newCols
  rw [hg'] at hg''
  cases hg''
  exact hunwritten

/-- The repaint on entry makes an unwritten canvas a new one. -/
theorem Canvas.markAllDirty_eq (h : g.Canvas) (hzero : g.mutations = 0) :
    g.markAllDirty = (new g.rows g.cols altGridConfig).markAllDirty := by
  have hun := h.blank hzero
  have henabled : g.dirty.enabled = true := by
    rw [h.ok.enabled, h.config]
    rfl
  have hdirty : g.dirty.markAll =
      ⟨true, true, true, none, List.replicate g.rows false, List.replicate g.rows none⟩ := by
    rw [markAll, henabled, ← hun.fullRows, ← hun.marks]
    rfl
  obtain ⟨raw, rows, cols, config, dirty, mutations, placements, placedBytes, evicted⟩ := g
  obtain ⟨hraw, hplacements, hbytes, hevicted, -, -⟩ := hun
  obtain rfl : config = altGridConfig := h.config
  obtain rfl : mutations = 0 := hzero
  obtain rfl : placements = [] := hplacements
  obtain rfl : placedBytes = 0 := hbytes
  obtain rfl : evicted = 0 := hevicted
  obtain rfl : raw = List.replicate rows (Row.new cols) := hraw
  unfold markAllDirty
  dsimp only at hdirty ⊢
  rw [hdirty]
  rfl

theorem resetBlank_eq (g : Grid) (rows cols : Nat) (config : GridConfig) :
    g.resetBlank rows cols config = new rows cols config := by
  have hrow (row : Row) : row.resetBlank cols = Row.new cols := by
    simp [Row.resetBlank, Row.new, Checked.resize]
  have hraw : (g.raw.take rows).map (fun row => row.resetBlank cols) ++
      List.replicate (rows - ((g.raw.take rows).map fun row => row.resetBlank cols).length)
        (Row.new cols) = List.replicate rows (Row.new cols) := by
    simp only [hrow, map_const', length_replicate, length_take]
    rw [← replicate_add]
    congr 1
    omega
  unfold resetBlank new
  dsimp only
  rw [hraw, reset_eq]

end Grid

/-- Recycling yields what a new grid would, whatever the retired one holds. -/
theorem Terminal.altCanvas_markAllDirty {t : Terminal}
    (hspare : ∀ spare, t.altSpare = some spare → spare.Canvas) :
    t.altCanvas.markAllDirty = (Grid.new t.grid.rows t.grid.cols altGridConfig).markAllDirty := by
  unfold Terminal.altCanvas
  split
  · next spare hsome =>
    have hcanvas := hspare spare (Option.filter_eq_some_iff.mp hsome).1
    split
    · next hblank =>
      simp only [Grid.isBlankCanvas, Bool.and_eq_true, beq_iff_eq] at hblank
      obtain ⟨⟨⟨⟨hzero, hrows⟩, hcols⟩, -⟩, -⟩ := hblank
      rw [hcanvas.markAllDirty_eq hzero, hrows, hcols]
    · rw [Grid.resetBlank_eq]
  · rfl

end Shux.Vt
