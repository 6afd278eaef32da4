/-
# A capture is the frame

Encoding, decoding and validating are put together over the rows of a frame. A capture of a
grid the terminal can produce passes, decodes to the visible cells, and a grid made from it
is captured as the same envelope.
-/

import Shux.Vt.CaptureEncode
import Shux.Vt.CaptureValid
import Shux.Vt.Evolve

namespace Shux.Vt

open Checked Fallible List

variable {cols : Nat}

/-- The cells of the viewport. -/
def Grid.visibleCells (g : Grid) : List (List Cell) := (g.raw.drop g.scrollbackLen).map Row.cells

/-- A grid the terminal can produce, small enough for a capture. -/
structure Grid.Capturable [Crates] (g : Grid) : Prop where
  rows_le : g.rows ≤ g.raw.length
  rows_lt : g.rows < 2 ^ 16
  cols_lt : g.cols < 2 ^ 16
  sound : ∀ row ∈ g.raw.drop g.scrollbackLen, row.Sound g.cols
  faithful : ∀ row ∈ g.raw.drop g.scrollbackLen, ∀ cell ∈ row.cells, cell.Faithful

namespace Grid

variable {g g' : Grid}

theorem length_visibleCells (h : g.rows ≤ g.raw.length) : g.visibleCells.length = g.rows := by
  unfold visibleCells scrollbackLen
  rw [length_map, length_drop]
  omega

theorem shownCell_eq (g : Grid) (r c : Nat) :
    g.shownCell r c = ((g.visibleCells[r]?).bind fun cells => cells[c]?).getD .empty := by
  unfold shownCell visibleCells Grid.row Row.get
  rw [List.getElem?_map, List.getElem?_drop]
  cases g.raw[g.scrollbackLen + r]? <;> rfl

/-- The runs of a row depend on its cells only. -/
theorem buildRowRuns_congr {r : Nat} (hcells : ∀ c, g'.shownCell r c = g.shownCell r c)
    (masks : MaskSet) : buildRowRuns g' r cols masks = buildRowRuns g r cols masks := by
  have hshown : g'.shownCell r = g.shownCell r := funext hcells
  unfold buildRowRuns maskedCols
  rw [hshown]

/-- A capture depends on the size and the visible cells of a grid only. -/
theorem fromParts_congr (hrows : g'.rows = g.rows) (hcols : g'.cols = g.cols)
    (hcells : g'.visibleCells = g.visibleCells) (cursor : Cursor) (defaults : TerminalDefaultColors)
    (alt palette : Bool) (masks : MaskSet) :
    FrameEnvelope.fromParts g' cursor defaults alt palette masks =
      FrameEnvelope.fromParts g cursor defaults alt palette masks := by
  unfold FrameEnvelope.fromParts
  simp only [hrows, hcols]
  congr 1
  refine map_congr_left fun r _ => ?_
  rw [buildRowRuns_congr fun c => ?_]
  rw [shownCell_eq, shownCell_eq, hcells]

/-- What the encoder makes of a row of glyphs. -/
theorem encodes_buildRowRuns {r : Nat} {glyphs : List Cell} (hcols : cols < 2 ^ 16)
    (hglyphs : ∀ glyph ∈ glyphs, glyph.IsGlyph) (hlen : (expand glyphs).length = cols)
    (hrow : g.visibleCells[r]? = some (expand glyphs)) :
    Encodes 0 none glyphs (buildRowRuns g r cols .new) := by
  have hahead : RowEncoder.Ahead (g.shownCell r) 0 glyphs := by
    intro i cell hcell
    rw [Nat.zero_add, shownCell_eq, hrow, Option.bind_some, hcell]
    rfl
  have hstart : RowEncoder.maskStart ⟨[], none, none⟩ = none := rfl
  obtain ⟨runs, hclose, hruns⟩ := RowEncoder.encodeFrom_spec (fun _ => Bool.false_and _) hcols
    hglyphs (by omega) hahead hstart (fun b hb => nomatch hb) (asU16 cols)
  rw [nil_append] at hclose
  rw [← hclose] at hruns
  exact hruns

end Grid

/-- What the runs of a row draw on a blank row. -/
def RowRepr.drawn (cols : Nat) (row : RowRepr) : List Cell :=
  row.runs.foldl (fun line run => decodeRunInto run line cols) (List.replicate cols .empty)

theorem modify_length {α : Type} (before : List α) (a : α) (after : List α) (f : α → α) :
    (before ++ a :: after).modify before.length f = before ++ f a :: after := by
  induction before with
  | nil => rfl
  | cons b before ih => rw [cons_append, length_cons, modify_succ_cons, ih]; rfl

/-- Rows in order are drawn one below the other. -/
theorem foldl_drawRow {rows : List RowRepr} {before : List (List Cell)}
    (horder : ∀ k row, rows[k]? = some row → row.row = before.length + k) :
    rows.foldl (FrameEnvelope.drawRow cols)
        (before ++ List.replicate rows.length (List.replicate cols .empty)) =
      before ++ rows.map (RowRepr.drawn cols) := by
  induction rows generalizing before with
  | nil => rfl
  | cons row rows ih =>
    have hrow : row.row = before.length := horder 0 row rfl
    rw [foldl_cons, length_cons, replicate_succ, FrameEnvelope.drawRow, hrow, modify_length]
    have hnext := @ih (before ++ [row.drawn cols]) fun k row' hrow' => by
      rw [length_append, length_singleton]
      have hat := horder (k + 1) row' hrow'
      omega
    rw [append_assoc, append_assoc] at hnext
    exact hnext

theorem toCells_eq {env : FrameEnvelope} (hcount : env.rows.length = env.size.rows)
    (horder : ∀ (k : Nat) (row : RowRepr), env.rows[k]? = some row → row.row = k) :
    env.toCells = env.rows.map (RowRepr.drawn env.size.cols) := by
  unfold FrameEnvelope.toCells
  rw [← hcount]
  exact @foldl_drawRow _ _ [] fun k row hrow => by
    rw [length_nil, Nat.zero_add]
    exact horder k row hrow

/-- Runs that encode the glyphs of a row draw it. -/
theorem drawn_eq {row : RowRepr} {glyphs : List Cell}
    (h : Encodes 0 none glyphs row.runs) (hkept : ∀ glyph ∈ glyphs, glyph.Kept)
    (hglyphs : ∀ glyph ∈ glyphs, glyph.IsGlyph) (hlen : (expand glyphs).length = cols) :
    row.drawn cols = expand glyphs := by
  have hdecode := @Encodes.decode cols glyphs 0 none row.runs h hkept hglyphs [] [] rfl cols
    hlen.symm (by rw [length_nil]; omega)
  rwa [nil_append, append_nil, append_nil] at hdecode

section Validate

variable [Crates]

/-- Rows that are in order and pass one by one pass. -/
theorem validateRows_iff {i : Nat} {rows : List RowRepr} :
    validateRows cols i rows = .ok () ↔
      ∀ k row, rows[k]? = some row → row.row = i + k ∧ validateRow row cols = .ok () := by
  induction rows generalizing i with
  | nil => exact ⟨nofun, fun _ => rfl⟩
  | cons row rows ih =>
    unfold validateRows
    constructor
    · intro hvalid
      split at hvalid
      · cases hvalid
      · next hrow =>
        obtain ⟨⟨⟩, hfirst, hrest⟩ := bind_eq_ok.mp hvalid
        intro k row' hrow'
        cases k with
        | zero =>
          cases hrow'
          exact ⟨by simpa using hrow, hfirst⟩
        | succ k =>
          obtain ⟨hat, hok⟩ := ih.mp hrest k row' hrow'
          exact ⟨by omega, hok⟩
    · intro hall
      obtain ⟨hrow, hfirst⟩ := hall 0 row rfl
      rw [if_neg (by simpa using hrow), hfirst]
      refine ih.mpr fun k row' hrow' => ?_
      obtain ⟨hat, hok⟩ := hall (k + 1) row' hrow'
      exact ⟨by omega, hok⟩

/-- What an envelope that passes is like. -/
theorem validate_iff {env : FrameEnvelope} :
    env.validate = .ok () ↔
      env.schema = schemaVersion ∧ env.rows.length = env.size.rows ∧
        env.cursor.row < env.size.rows ∧ env.cursor.col ≤ env.size.cols ∧
        ∀ k row, env.rows[k]? = some row → row.row = k ∧
          validateRow row env.size.cols = .ok () := by
  unfold FrameEnvelope.validate
  constructor
  · intro hvalid
    split at hvalid
    · cases hvalid
    · split at hvalid
      · cases hvalid
      · split at hvalid
        · cases hvalid
        · split at hvalid
          · cases hvalid
          · next hschema hcount hrow hcol =>
            refine ⟨not_not.mp hschema, not_not.mp hcount, by omega, by omega, ?_⟩
            intro k row hat
            have hok := validateRows_iff.mp hvalid k row hat
            rwa [Nat.zero_add] at hok
  · rintro ⟨hschema, hcount, hrow, hcol, hrows⟩
    rw [if_neg (not_not.mpr hschema), if_neg (not_not.mpr hcount), if_neg (by omega),
      if_neg (by omega)]
    refine validateRows_iff.mpr fun k row hat => ?_
    rw [Nat.zero_add]
    exact hrows k row hat

end Validate

/-- Cells written over the front of a row of their number replace it. -/
theorem runs_paintRow {cells : List Cell} {row : Row} (hlen : cells.length = row.cells.length) :
    Runs (FrameEnvelope.paintRow cells row) fun out => out.1 = ⟨cells, row.wrapped⟩ := by
  refine .bind (.assignAll 0 (by omega)) fun painted hpainted => .pure ?_
  rw [hpainted, Nat.zero_add, hlen, take_zero, drop_length, nil_append, append_nil]

/-- A grid whose rows are drawn down to the last of `above`, and blank below. -/
structure Grid.DrawnTo (w : Nat) (above : List (List Cell)) (below : Nat) (g : Grid) : Prop where
  rows : g.rows = above.length + below
  cols : g.cols = w
  lines : g.raw.length = g.rows
  dirty : g.dirty.Fits g.rows g.cols
  cells : g.raw.map Row.cells = above ++ List.replicate below (List.replicate w .empty)

/-- Painting the first blank row. -/
theorem Grid.DrawnTo.step {below : Nat} {above : List (List Cell)} {g : Grid}
    (h : g.DrawnTo cols above (below + 1)) {cells : List Cell} (hlen : cells.length = cols) :
    Runs (g.editRowMarked above.length (FrameEnvelope.paintRow cells)) fun out =>
      out.1.DrawnTo cols (above ++ [cells]) below := by
  have hback : g.scrollbackLen = 0 := by
    unfold scrollbackLen
    rw [h.lines, Nat.sub_self]
  have hat : above.length < g.raw.length := by
    have hrows := h.rows
    rw [h.lines]
    omega
  have hold : (g.raw.map Row.cells)[above.length]? = some (List.replicate cols Cell.empty) := by
    rw [h.cells, List.getElem?_append_right (Nat.le_refl _), Nat.sub_self, replicate_succ]
    rfl
  refine .bind (h.dirty.markRow above.length) fun dirty hdirty => ?_
  unfold Grid.editRow
  have hback' : Grid.scrollbackLen { g.bumpMutations with dirty } = 0 := hback
  rw [hback', Nat.zero_add]
  refine .bind (.index hat) fun row hrow => ?_
  have hrow' : g.raw[above.length]? = some row := hrow
  rw [List.getElem?_map, hrow', Option.map_some, Option.some.injEq] at hold
  refine .bind (runs_paintRow (by rw [hold, length_replicate, hlen])) fun out hout => ?_
  refine .bind (.assign hat) fun raw hraw => .pure ?_
  have hrows := h.rows
  constructor
  · show g.rows = _
    rw [length_append, length_singleton]
    omega
  · exact h.cols
  · show raw.length = g.rows
    rw [hraw, length_set]
    exact h.lines
  · exact hdirty.1
  · show raw.map Row.cells = _
    rw [hraw, map_set, hout]
    show (g.raw.map Row.cells).set _ _ = _
    rw [h.cells, set_append_right _ _ (Nat.le_refl _), Nat.sub_self, replicate_succ,
      set_cons_zero, append_assoc]
    rfl

/-- A grid made from an envelope shows the cells of the envelope. -/
theorem FrameEnvelope.runs_toGrid {env : FrameEnvelope}
    (hne : env.toCells ≠ []) (hlen : ∀ cells ∈ env.toCells, cells.length = cols) :
    Runs env.toGrid fun g => g.rows = env.toCells.length ∧ g.cols = cols ∧
      g.visibleCells = env.toCells := by
  have hcols : (env.toCells.head?.map List.length).getD 0 = cols := by
    obtain ⟨cells, rest, hcells⟩ := exists_cons_of_ne_nil hne
    rw [hcells] at hlen ⊢
    exact hlen cells mem_cons_self
  unfold toGrid
  dsimp only
  rw [hcols]
  have hloop : ∀ (rest above : List (List Cell)) (g : Grid), (∀ cells ∈ rest, cells.length = cols) →
      g.DrawnTo cols above rest.length →
      Runs ((rest.zipIdx above.length).foldlM (fun g row => do
        let out ← g.editRowMarked row.2 (paintRow row.1)
        pure out.1) g) fun g' => g'.DrawnTo cols (above ++ rest) 0 := by
    intro rest
    induction rest with
    | nil =>
      intro above g _ hg
      rw [append_nil]
      exact .pure hg
    | cons cells rest ih =>
      intro above g hall hg
      rw [zipIdx_cons, foldlM_cons]
      refine .bind (.bind (hg.step (hall cells mem_cons_self)) fun out hout =>
        Runs.pure hout) fun g' hg' => ?_
      have hrest := ih (above ++ [cells]) g'
        (fun cells hcells => hall cells (mem_cons_of_mem _ hcells)) hg'
      rw [length_append, length_singleton, append_assoc] at hrest
      exact hrest
  have hstart : (Grid.new env.toCells.length cols .default).DrawnTo cols [] env.toCells.length := by
    constructor
    · exact (Nat.zero_add _).symm
    · rfl
    · exact length_replicate
    · exact DirtyState.fits_new _ _ _
    · exact map_replicate
  refine (hloop env.toCells [] _ hlen hstart).mono fun g hg => ⟨hg.rows, hg.cols, ?_⟩
  have hback : g.scrollbackLen = 0 := by
    unfold Grid.scrollbackLen
    rw [hg.lines, Nat.sub_self]
  unfold Grid.visibleCells
  rw [hback, drop_zero, hg.cells, replicate_zero, append_nil, nil_append]

section Capture

variable [Crates] {g : Grid}

/-- A visible row is a row of glyphs the wire keeps. -/
theorem Grid.Capturable.glyphs (h : g.Capturable) {r : Nat} (hr : r < g.rows) :
    ∃ glyphs, g.visibleCells[r]? = some (expand glyphs) ∧ (expand glyphs).length = g.cols ∧
      (∀ glyph ∈ glyphs, glyph.Faithful) ∧ ∀ glyph ∈ glyphs, glyph.IsGlyph := by
  have hlen := Grid.length_visibleCells h.rows_le
  have hlt : r < (g.raw.drop g.scrollbackLen).length := by
    unfold Grid.visibleCells at hlen
    rw [length_map] at hlen
    omega
  have hmem := getElem_mem hlt
  have hsound := h.sound _ hmem
  obtain ⟨glyphs, hcells, hglyphs⟩ := exists_glyphs hsound.paired
  refine ⟨glyphs, ?_, ?_, ?_, fun glyph hglyph => (hglyphs glyph hglyph).2⟩
  · unfold Grid.visibleCells
    rw [List.getElem?_map, List.getElem?_eq_getElem hlt, Option.map_some, hcells]
  · rw [← hcells]
    exact hsound.length
  · intro glyph hglyph
    exact h.faithful _ hmem glyph (hglyphs glyph hglyph).1

variable (cursor : Cursor) (defaults : TerminalDefaultColors) (alt palette : Bool)

/-- The rows of a capture are numbered, and each encodes its row of the viewport. -/
theorem Grid.Capturable.row_fromParts (h : g.Capturable) {k : Nat} {row : RowRepr}
    (hrow : (FrameEnvelope.fromParts g cursor defaults alt palette .new).rows[k]? = some row) :
    row.row = k ∧ ∃ glyphs, g.visibleCells[k]? = some (expand glyphs) ∧
      (expand glyphs).length = g.cols ∧ (∀ glyph ∈ glyphs, glyph.Faithful) ∧
      (∀ glyph ∈ glyphs, glyph.IsGlyph) ∧ Encodes 0 none glyphs row.runs := by
  have hrows : ((List.range g.rows).map fun r =>
      (⟨asU16 r, buildRowRuns g r g.cols .new⟩ : RowRepr))[k]? = some row := hrow
  rw [List.getElem?_map, Option.map_eq_some_iff] at hrows
  obtain ⟨r, hr, rfl⟩ := hrows
  obtain ⟨hlt, hat⟩ := List.getElem?_eq_some_iff.mp hr
  rw [getElem_range] at hat
  rw [length_range] at hlt
  subst hat
  obtain ⟨glyphs, hcells, hlen, hfaithful, hglyphs⟩ := h.glyphs hlt
  exact ⟨asU16_of_lt (Nat.lt_trans hlt h.rows_lt), glyphs, hcells, hlen, hfaithful, hglyphs,
    Grid.encodes_buildRowRuns h.cols_lt hglyphs hlen hcells⟩

theorem Grid.Capturable.size_fromParts (h : g.Capturable) (masks : MaskSet) :
    (FrameEnvelope.fromParts g cursor defaults alt palette masks).size.rows = g.rows ∧
      (FrameEnvelope.fromParts g cursor defaults alt palette masks).size.cols = g.cols :=
  ⟨asU16_of_lt h.rows_lt, asU16_of_lt h.cols_lt⟩

omit [Crates] in
theorem length_rows_fromParts (masks : MaskSet) :
    (FrameEnvelope.fromParts g cursor defaults alt palette masks).rows.length = g.rows := by
  show ((List.range g.rows).map _).length = g.rows
  rw [length_map, length_range]

/-- A capture passes. -/
theorem Grid.Capturable.validate_fromParts (h : g.Capturable) (hrow : cursor.row < g.rows)
    (hcol : cursor.col ≤ g.cols) :
    (FrameEnvelope.fromParts g cursor defaults alt palette .new).validate = .ok () := by
  obtain ⟨hrows, hcols⟩ := h.size_fromParts cursor defaults alt palette .new
  have hrows_lt := h.rows_lt
  have hcols_lt := h.cols_lt
  rw [validate_iff, hrows, hcols]
  refine ⟨rfl, length_rows_fromParts cursor defaults alt palette .new, ?_, ?_, ?_⟩
  · show asU16 cursor.row < g.rows
    rwa [asU16_of_lt (by omega)]
  · show asU16 cursor.col ≤ g.cols
    rwa [asU16_of_lt (by omega)]
  · intro k row hat
    obtain ⟨hnumber, glyphs, -, hlen, hfaithful, hglyphs, hencodes⟩ :=
      h.row_fromParts cursor defaults alt palette hat
    refine ⟨hnumber, ?_⟩
    exact hencodes.validate hfaithful hglyphs (by omega) h.cols_lt (Nat.le_refl 0)
      fun _ _ hnone => nomatch hnone

/-- A capture decodes to the visible cells. -/
theorem Grid.Capturable.toCells_fromParts (h : g.Capturable) :
    (FrameEnvelope.fromParts g cursor defaults alt palette .new).toCells = g.visibleCells := by
  obtain ⟨hrows, hcols⟩ := h.size_fromParts cursor defaults alt palette .new
  have hcount := length_rows_fromParts cursor defaults alt palette (g := g) .new
  have hvisible := Grid.length_visibleCells h.rows_le
  rw [toCells_eq (hcount.trans hrows.symm) fun k row hat =>
    (h.row_fromParts cursor defaults alt palette hat).1, hcols]
  refine ext_getElem? fun k => ?_
  rw [List.getElem?_map]
  cases hat : (FrameEnvelope.fromParts g cursor defaults alt palette .new).rows[k]? with
  | none =>
    rw [List.getElem?_eq_none_iff, hcount] at hat
    exact (List.getElem?_eq_none (by omega)).symm
  | some row =>
    obtain ⟨-, glyphs, hcells, hlen, hfaithful, hglyphs, hencodes⟩ :=
      h.row_fromParts cursor defaults alt palette hat
    rw [hcells, Option.map_some, drawn_eq hencodes (fun glyph hmem => (hfaithful glyph hmem).toKept)
      hglyphs hlen]

/-- A grid made from a capture is captured as the same envelope. -/
theorem Grid.Capturable.toGrid_fromParts (h : g.Capturable) (hpos : 0 < g.rows) :
    Runs (FrameEnvelope.fromParts g cursor defaults alt palette .new).toGrid fun g' =>
      FrameEnvelope.fromParts g' cursor defaults alt palette .new =
        FrameEnvelope.fromParts g cursor defaults alt palette .new := by
  have hcells := h.toCells_fromParts cursor defaults alt palette
  have hvisible := Grid.length_visibleCells h.rows_le
  have hne : g.visibleCells ≠ [] := ne_nil_of_length_pos (by omega)
  have hlen : ∀ cells ∈ g.visibleCells, cells.length = g.cols := by
    intro cells hmem
    obtain ⟨row, hrow, rfl⟩ := mem_map.mp hmem
    exact (h.sound row hrow).length
  refine (@FrameEnvelope.runs_toGrid g.cols _ (by rwa [hcells]) (by rwa [hcells])).mono ?_
  rintro g' ⟨hrows, hcols, hdrawn⟩
  rw [hcells] at hrows hdrawn
  exact Grid.fromParts_congr (hrows.trans hvisible) hcols hdrawn cursor defaults alt palette .new

end Capture

end Shux.Vt
