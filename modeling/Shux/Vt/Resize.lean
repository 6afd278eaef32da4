/-
# What a resize can do

A resize cuts, fills or reflows every row, so all of them are sound at the new width.
It counts no write and keeps the placements; a change of size marks the whole frame, and
a resize to the size the grid has leaves it as it is.
-/

import Shux.Vt.Reflow
import Shux.Vt.Evolve

namespace Shux.Vt

open Checked List

variable {cols rows : Nat} {raw : List Row} {row : Row}
variable {st : Layout}

theorem trimBlankBack_isPrefix (n : Nat) (raw : List Row) : trimBlankBack n raw <+: raw := by
  induction n generalizing raw with
  | zero => exact prefix_rfl
  | succ n ih =>
    rw [trimBlankBack]
    split
    · exact (ih raw.dropLast).trans ( dropLast_prefix raw)
    · exact prefix_rfl

theorem sound_trimBlankBack (n : Nat) (h : ∀ row ∈ raw, row.Sound cols) :
    ∀ row ∈ trimBlankBack n raw, row.Sound cols :=
  fun row hrow => h row ((trimBlankBack_isPrefix n raw).subset hrow)

theorem sound_padRows (rows : Nat) (h : ∀ row ∈ raw, row.Sound cols) :
    ∀ row ∈ padRows raw rows cols, row.Sound cols := by
  intro row hrow
  rcases mem_append.mp hrow with hrow | hrow
  · exact h row hrow
  · rw [eq_of_mem_replicate hrow]
    exact Row.sound_new cols

theorem length_padRows (raw : List Row) (rows cols : Nat) :
    (padRows raw rows cols).length = max rows raw.length := by
  rw [padRows, length_append, length_replicate]
  omega

/-- Putting a character where everything from its first column on is single. -/
theorem Row.Sound.place (h : row.Sound cols) {col : Nat} {cell : Cell}
    (hahead : ∀ i, col ≤ i → Row.widthAt row.cells i = 1)
    (hcell : cell.width = 1 ∨ cell.width = 2) (hfit : col + cell.width ≤ cols) :
    Runs (do
      let row ← row.setCell col cell
      (if cell.width = 2 ∧ col + 1 < cols then row.setCell (col + 1) .wideContinuation
        else pure row)) fun row' =>
      row'.Sound cols ∧ ∀ i, col + cell.width ≤ i → Row.widthAt row'.cells i = 1 := by
  have hlen := h.length
  rcases hcell with hone | htwo
  · rw [hone] at hfit ⊢
    have hset : Runs (row.setCell col cell) (Row.Sound cols) :=
      h.setCell hfit (hahead col le_rfl) hone
    obtain ⟨row', hrow', hsound⟩ := hset
    obtain ⟨_, hrow'', rfl⟩ := Row.runs_setCell (show col < row.cells.length by omega) cell
    rw [hrow''] at hrow'
    obtain rfl := Option.some.inj hrow'
    rw [hrow'']
    refine .pure ⟨hsound, fun i hi => ?_⟩
    rw [Row.widthAt_set (by omega), if_neg (by omega)]
    exact hahead i (by omega)
  · rw [htwo] at hfit ⊢
    apply Runs.bind (Row.runs_setCell (by omega) cell)
    rintro _ rfl
    rw [if_pos ⟨rfl, by omega⟩]
    have hlen' : col + 1 < (row.cells.set col cell).length := by
      rw [length_set]
      omega
    apply (Row.runs_setCell hlen' _).mono
    rintro _ rfl
    refine ⟨h.set_pair (by omega) (hahead col le_rfl) (hahead (col + 1) (by omega)) htwo,
      fun i hi => ?_⟩
    rw [Row.widthAt_set hlen', if_neg (by omega), Row.widthAt_set (by omega), if_neg (by omega)]
    exact hahead i (by omega)

/-- Every row laid out is sound, and nothing wide stands ahead of the next cell. -/
structure Layout.Ok (cols : Nat) (st : Layout) : Prop where
  rows : ∀ row ∈ st.rows, row.Sound cols
  row : st.row.Sound cols
  ahead : ∀ i, st.col ≤ i → Row.widthAt st.row.cells i = 1

theorem widthAt_new (cols i : Nat) : Row.widthAt (Row.new cols).cells i = 1 := by
  rw [Row.widthAt, Row.new, List.getElem?_replicate]
  split <;> rfl

theorem sound_wrapped (h : row.Sound cols) (wrapped : Bool) :
    ({ row with wrapped } : Row).Sound cols :=
  ⟨h.length, h.paired⟩

theorem Layout.Ok.wrap (h : st.Ok cols) : (st.wrap cols).Ok cols where
  rows row hrow := by
    rcases mem_append.mp hrow with hrow | hrow
    · exact h.rows row hrow
    · rw [mem_singleton.mp hrow]
      exact sound_wrapped h.row true
  row := Row.sound_new cols
  ahead i _ := widthAt_new cols i

/-- Wrap when a condition says so; the condition then fails. -/
theorem Layout.Ok.wrapIf (h : st.Ok cols) (c : Prop) [Decidable c] :
    (if c then st.wrap cols else st).Ok cols := by
  split
  · exact h.wrap
  · exact h

theorem Layout.Ok.layOutCell {cell : Cell} (h : st.Ok cols) (hcols : 1 ≤ cols)
    (hcell : cell.width = 1 ∨ cell.width = 2) :
    Runs (layOutCell cols st cell) (Layout.Ok cols) := by
  have hwidth : max cell.width 1 = cell.width := by omega
  unfold Vt.layOutCell
  rw [hwidth]
  dsimp only
  have hok := h.wrapIf (cols ≤ st.col)
  have hcol : (if cols ≤ st.col then st.wrap cols else st).col < cols := by
    split
    · exact hcols
    · omega
  generalize (if cols ≤ st.col then st.wrap cols else st) = st' at hok hcol
  apply Runs.ite
  · intro hnarrow
    have hset : Runs (st'.row.setCell st'.col (cell.reset cell.style.bg)) (Row.Sound cols) :=
      hok.row.setCell hcol (hok.ahead _ le_rfl) rfl
    have hlen : st'.col < st'.row.cells.length := hok.row.length.symm ▸ hcol
    obtain ⟨_, hrow, rfl⟩ := Row.runs_setCell hlen (cell.reset cell.style.bg)
    obtain ⟨_, hrow', hsound⟩ := hset
    rw [hrow] at hrow'
    obtain rfl := Option.some.inj hrow'
    rw [hrow]
    refine .pure ⟨hok.rows, hsound, fun i hi => ?_⟩
    have hi' : st'.col + 1 ≤ i := hi
    show Row.widthAt (st'.row.cells.set st'.col _) i = 1
    rw [Row.widthAt_set hlen, if_neg (by omega)]
    exact hok.ahead i (by omega)
  · intro hfits
    have hok' := hok.wrapIf (cols < st'.col + cell.width ∧ 0 < st'.col)
    have hcol' : (if cols < st'.col + cell.width ∧ 0 < st'.col then st'.wrap cols else st').col +
        cell.width ≤ cols := by
      split
      · show 0 + cell.width ≤ cols
        omega
      · omega
    generalize (if cols < st'.col + cell.width ∧ 0 < st'.col then st'.wrap cols else st') = st''
      at hok' hcol'
    obtain ⟨row₂, hrow₂, hsound, hahead⟩ := hok'.row.place hok'.ahead hcell hcol'
    obtain ⟨row₁, hrow₁, hrow₂⟩ := Option.bind_eq_some_iff.mp hrow₂
    apply Runs.bind ⟨row₁, hrow₁, rfl⟩
    rintro _ rfl
    rw [hrow₂]
    refine .pure ⟨hok'.rows, hsound, fun i hi => hahead i ?_⟩
    have hi' : st''.col + min cell.width cols ≤ i := hi
    omega

theorem runs_appendReflowedLine {line : LogicalLine} (hcols : 1 ≤ cols)
    (hrows : ∀ row ∈ raw, row.Sound cols) (hcells : Row.Regular line.cells) :
    Runs (appendReflowedLine raw line cols) fun out => ∀ row ∈ out.1, row.Sound cols := by
  have hstart : Layout.Ok cols ⟨raw, Row.new cols, 0, 0, []⟩ :=
    ⟨hrows, Row.sound_new cols, fun i _ => widthAt_new cols i⟩
  apply Runs.bind (.each (Layout.Ok cols) hstart ?_)
  · intro st hst
    apply Runs.pure
    intro row hrow
    rcases mem_append.mp hrow with hrow | hrow
    · exact hst.rows row hrow
    · rw [mem_singleton.mp hrow]
      exact hst.row
  · intro cell hcell st hst
    obtain ⟨hmem, hhead⟩ := mem_filter.mp hcell
    apply hst.layOutCell hcols
    rcases hcells cell hmem with hone | htwo | rfl
    · exact .inl hone
    · exact .inr htwo
    · cases hhead

theorem runs_layOutLines {lines : List LogicalLine} (hcols : 1 ≤ cols)
    (hlines : ∀ line ∈ lines, Row.Regular line.cells) :
    Runs (layOutLines lines cols) fun out => ∀ row ∈ out.1, row.Sound cols := by
  apply Runs.each (fun out : List Row × List ReflowedLineMap => ∀ row ∈ out.1, row.Sound cols)
  · exact fun row hrow => absurd hrow not_mem_nil
  · rintro line hline ⟨rows, maps⟩ hrows
    apply Runs.bind (runs_appendReflowedLine hcols hrows (hlines line hline))
    rintro ⟨rows', map⟩ hrows'
    exact .pure hrows'

/-- Every cell gathered so far is regular. -/
def Gathered.Regular (st : Gathered) : Prop :=
  (∀ line ∈ st.lines, Row.Regular line.cells) ∧ Row.Regular st.current.cells

theorem Gathered.Regular.gatherRow {st : Gathered} (h : st.Regular) (hrow : Row.Regular row.cells)
    (cursor : Option (Nat × Nat)) (absRow : Nat) :
    (Vt.gatherRow cursor st (row, absRow)).Regular := by
  have hcurrent : Row.Regular (st.current.cells ++
      if row.wrapped then row.cells else trimDefaultTrailingCells row.cells) := by
    intro cell hcell
    rcases mem_append.mp hcell with hcell | hcell
    · exact h.2 cell hcell
    · split at hcell
      · exact hrow cell hcell
      · exact hrow cell (( rdropWhile_prefix _ _).subset hcell)
  unfold Vt.gatherRow
  dsimp only
  generalize (if row.wrapped then row.cells else trimDefaultTrailingCells row.cells) = rowCells
    at hcurrent
  split
  · exact ⟨h.1, hcurrent⟩
  · refine ⟨fun line hline => ?_, fun cell hcell => absurd hcell not_mem_nil⟩
    rcases mem_append.mp hline with hline | hline
    · exact h.1 line hline
    · rw [mem_singleton.mp hline]
      exact hcurrent

theorem regular_gatherLines (hraw : ∀ row ∈ raw, Row.Regular row.cells)
    (cursor : Option (Nat × Nat)) :
    ∀ line ∈ (gatherLines raw cursor).1, Row.Regular line.cells := by
  have hfold : (raw.zipIdx.foldl (gatherRow cursor) ⟨[], .default, none⟩).Regular := by
    apply List.foldlRecOn (motive := Gathered.Regular)
    · exact ⟨fun line hline => absurd hline not_mem_nil, fun cell hcell => absurd hcell not_mem_nil⟩
    · rintro st hst ⟨row, absRow⟩ hrow
      exact hst.gatherRow (hraw row (fst_mem_of_mem_zipIdx hrow)) cursor absRow
  unfold gatherLines
  dsimp only
  generalize raw.zipIdx.foldl (gatherRow cursor) ⟨[], .default, none⟩ = st at hfold
  have hall : ∀ line ∈ (if st.current.cells.isEmpty then st.lines else st.lines ++ [st.current]),
      Row.Regular line.cells := by
    intro line hline
    split at hline
    · exact hfold.1 line hline
    · rcases mem_append.mp hline with hline | hline
      · exact hfold.1 line hline
      · rw [mem_singleton.mp hline]
        exact hfold.2
  generalize (if st.current.cells.isEmpty then st.lines else st.lines ++ [st.current]) = lines
    at hall
  intro line hline
  split at hline
  · rw [mem_singleton.mp hline]
    exact fun cell hcell => absurd hcell not_mem_nil
  · exact hall line hline

namespace Grid

variable {g : Grid} {newRows newCols : Nat}

/-- What a resize of a grid can do. -/
structure Resized (g : Grid) (newRows newCols : Nat) (g' : Grid) : Prop where
  ok : g'.Ok
  rows : g'.rows = newRows
  cols : g'.cols = newCols
  config : g'.config = g.config
  mutations : g'.mutations = g.mutations
  placements : g'.placements = g.placements
  placedBytes : g'.placedBytes = g.placedBytes
  evicted : g.evicted ≤ g'.evicted
  same : newRows = g.rows → newCols = g.cols → g' = g
  marks : g.config.trackDirty = true → newRows ≠ g.rows ∨ newCols ≠ g.cols →
    g'.dirty.fullFrame = true

/-- The new size marks the whole frame. -/
theorem Ok.resized (h : g.Ok) {evicted : Nat} (hevicted : g.evicted ≤ evicted)
    (hlen : newRows ≤ raw.length) (hsound : ∀ row ∈ raw, row.Sound newCols)
    (hne : newRows ≠ g.rows ∨ newCols ≠ g.cols) :
    Resized g newRows newCols { g with
      raw, rows := newRows, cols := newCols, evicted,
      dirty := (g.dirty.resizeRows newRows).markAll } where
  ok := ⟨hlen, hsound, DirtyState.fits_resizeRows_markAll _ _ _,
    (DirtyState.keeps_markAll _).enabled.trans h.enabled⟩
  rows := rfl
  cols := rfl
  config := rfl
  mutations := rfl
  placements := rfl
  placedBytes := rfl
  evicted := hevicted
  same hrows hcols := by
    rcases hne with hne | hne
    · exact absurd hrows hne
    · exact absurd hcols hne
  marks htrack _ := by
    have he : (g.dirty.resizeRows newRows).enabled = true := h.enabled.trans htrack
    show (g.dirty.resizeRows newRows).markAll.fullFrame = true
    rw [DirtyState.markAll, he]
    rfl

theorem Ok.resizeCols (h : g.Ok) (newCols : Nat) :
    Runs (g.resizeCols newCols) fun g' => ∃ raw, g' = { g with raw, cols := newCols } ∧
      raw.length = g.raw.length ∧ (∀ row ∈ raw, row.Sound newCols) ∧
      (newCols = g.cols → raw = g.raw) := by
  apply Runs.ite
  · rintro rfl
    exact .pure ⟨g.raw, rfl, rfl, h.sound, fun _ => rfl⟩
  · intro hne
    have hrows : ∀ row ∈ g.raw, Runs ((row.resize newCols .empty).sanitizeWidePairs .default)
        (Row.Sound newCols) := fun row hrow => (h.sound row hrow).resize newCols
    apply Runs.bind (.mapM (S := fun _ => Row.Sound newCols) hrows)
    intro raw hraw
    refine .pure ⟨raw, rfl, hraw.length_eq.symm, ?_, fun heq => absurd heq hne⟩
    intro row hrow
    obtain ⟨i, hi, rfl⟩ := getElem_of_mem hrow
    exact hraw.get (hraw.length_eq.symm ▸ hi) hi

/-- The lines of a canvas of another height, and how many of them there are. -/
theorem runs_resizeRows (hsound : ∀ row ∈ g.raw, row.Sound g.cols) (hlen : g.rows ≤ g.raw.length)
    (newRows : Nat) :
    Runs (g.resizeRows newRows) fun g' => ∃ raw, g' = { g with raw, rows := newRows } ∧
      raw.length = max newRows (trimBlankBack (g.rows - newRows) g.raw).length ∧
      (∀ row ∈ raw, row.Sound g.cols) ∧ (newRows = g.rows → raw = g.raw) := by
  apply Runs.ite
  · intro hlt
    apply Runs.bind (.sub hlt.le)
    rintro _ rfl
    refine .pure ⟨_, rfl, length_padRows _ _ _,
      sound_padRows newRows (sound_trimBlankBack _ hsound), fun heq => ?_⟩
    omega
  · intro hge
    apply Runs.ite
    · intro hgt
      apply Runs.bind (.sub hgt.le)
      rintro _ rfl
      apply Runs.bind (.sub (min_le_left _ _))
      rintro _ rfl
      refine .pure ⟨_, rfl, ?_, ?_, fun heq => ?_⟩
      · rw [Nat.sub_eq_zero_of_le hgt.le, trimBlankBack, length_append,
          length_replicate, scrollbackLen]
        omega
      · intro row hrow
        rcases mem_append.mp hrow with hrow | hrow
        · exact hsound row hrow
        · rw [eq_of_mem_replicate hrow]
          exact Row.sound_new g.cols
      · omega
    · intro hle
      have heq : newRows = g.rows := by omega
      refine .pure ⟨g.raw, rfl, ?_, hsound, fun _ => rfl⟩
      rw [Nat.sub_eq_zero_of_le heq.ge, trimBlankBack]
      omega

/-- The lines a canvas of another size keeps: blank rows at the bottom go first. -/
def canvasLines (g : Grid) (newRows newCols : Nat) : Checked (List Row) := do
  let g ← g.resizeCols newCols
  pure (trimBlankBack (g.rows - newRows) g.raw)

theorem Ok.resizeCanvas (h : g.Ok) (newRows newCols : Nat) :
    Runs (g.resizeCanvas newRows newCols) fun g' => Resized g newRows newCols g' ∧
      g'.evicted = g.evicted ∧
      ∃ kept, g.canvasLines newRows newCols = some kept ∧
        g'.raw.length = max newRows kept.length := by
  obtain ⟨g₁, hg₁, raw₁, rfl, hlen₁, hsound₁, hsame₁⟩ := h.resizeCols newCols
  have hrows₁ : g.rows ≤ raw₁.length := hlen₁ ▸ h.rows_le
  obtain ⟨g₂, hg₂, raw₂, rfl, hlen₂, hsound₂, hsame₂⟩ :=
    runs_resizeRows (g := { g with raw := raw₁, cols := newCols }) hsound₁ hrows₁ newRows
  unfold Grid.resizeCanvas
  rw [hg₁]
  apply Runs.bind (.some rfl)
  rintro _ rfl
  rw [hg₂]
  apply Runs.bind (.some rfl)
  rintro _ rfl
  apply Runs.pure
  have hkept : g.canvasLines newRows newCols =
      some (trimBlankBack (g.rows - newRows) raw₁) := by
    rw [canvasLines, hg₁]
    rfl
  refine ⟨?_, rfl, _, hkept, hlen₂⟩
  by_cases hne : newRows ≠ g.rows ∨ newCols ≠ g.cols
  · have hresized : (newRows != g.rows || newCols != g.cols) = true := by
      simpa [bne_iff_ne] using hne
    rw [hresized]
    exact h.resized le_rfl (by rw [hlen₂]; exact le_max_left _ _) hsound₂ hne
  · have hrows : newRows = g.rows := by omega
    have hcols : newCols = g.cols := by omega
    obtain rfl : raw₁ = g.raw := hsame₁ hcols
    obtain rfl : raw₂ = g.raw := hsame₂ hrows
    subst hrows hcols
    have hdirty : g.dirty.resizeRows g.rows = g.dirty := DirtyState.resizeRows_self h.dirty
    simp only [bne_self_eq_false, Bool.or_self, Bool.false_eq_true, if_false]
    rw [hdirty]
    exact ⟨h, rfl, rfl, rfl, rfl, rfl, rfl, le_rfl, fun _ _ => rfl,
      fun _ hne => absurd hne (by simp)⟩

theorem fitReflowed_spec (g : Grid) (newRows : Nat) {raw : List Row}
    (hsound : ∀ row ∈ raw, row.Sound newCols) :
    newRows ≤ (g.fitReflowed raw newRows newCols).1.length ∧
      (g.fitReflowed raw newRows newCols).1.length ≤ newRows + g.config.maxScrollback ∧
      ∀ row ∈ (g.fitReflowed raw newRows newCols).1, row.Sound newCols := by
  unfold fitReflowed
  dsimp only
  have hall := sound_padRows newRows (sound_trimBlankBack
    ((padRows raw newRows newCols).length - (min g.scrollbackLen g.config.maxScrollback + newRows))
    (sound_padRows newRows hsound))
  have hlen := length_padRows (trimBlankBack ((padRows raw newRows newCols).length -
    (min g.scrollbackLen g.config.maxScrollback + newRows)) (padRows raw newRows newCols))
    newRows newCols
  refine ⟨?_, ?_, fun row hrow => hall row (mem_of_mem_drop hrow)⟩
  · rw [length_drop]
    omega
  · rw [length_drop]
    omega

theorem runs_positionForOffset (line : ReflowedLineMap) (offset : Nat) :
    Runs (line.positionForOffset offset) fun _ => True := by
  unfold ReflowedLineMap.positionForOffset
  dsimp only
  split
  · exact .pure trivial
  · split
    · next cell hfind =>
      have hcovers := List.find?_some hfind
      rw [Bool.and_eq_true, decide_eq_true_iff] at hcovers
      apply Runs.bind (.sub hcovers.1)
      rintro _ rfl
      exact .pure trivial
    · exact .pure trivial

theorem runs_absCursorForAnchor (g : Grid) (maps : List ReflowedLineMap) (anchor : CursorAnchor)
    (dropped : Nat) : Runs (g.absCursorForAnchor maps anchor dropped) fun _ => True := by
  unfold absCursorForAnchor
  split
  · exact .pure trivial
  · apply Runs.bind (runs_positionForOffset _ _)
    rintro ⟨absRow, col⟩ -
    exact .pure trivial

theorem Ok.resizeReflowingColumns (h : g.Ok) (hcols : 1 ≤ newCols) (hne : newCols ≠ g.cols)
    (cursor : Option (Nat × Nat)) :
    Runs (g.resizeReflowingColumns newRows newCols cursor) fun out =>
      Resized g newRows newCols out.1 ∧
      out.1.raw.length ≤ newRows + g.config.maxScrollback := by
  unfold Grid.resizeReflowingColumns
  have hlines := @regular_gatherLines g.raw (fun row hrow => (h.sound row hrow).paired.regular)
  dsimp only
  generalize hgathered : gatherLines g.raw _ = gathered
  have hlines := hgathered ▸ hlines _
  obtain ⟨lines, anchor⟩ := gathered
  apply Runs.bind (runs_layOutLines hcols hlines)
  rintro ⟨raw, maps⟩ hraw
  have hfit := fitReflowed_spec g newRows hraw
  dsimp only
  generalize g.fitReflowed raw newRows newCols = fitted at hfit
  obtain ⟨raw', dropped⟩ := fitted
  obtain ⟨hlen, hbound, hsound⟩ := hfit
  have hresized := h.resized (Nat.le_add_right g.evicted dropped) hlen hsound (.inr hne)
  cases anchor with
  | none => exact .pure ⟨hresized, hbound⟩
  | some anchor =>
    apply Runs.bind (runs_absCursorForAnchor _ _ _ _)
    rintro ⟨absRow, col⟩ -
    exact .pure ⟨hresized, hbound⟩

/-- A resize keeps the grid in order. Unless the width changes, the lines are those of the
canvas. -/
theorem Ok.resizeWithCursor (h : g.Ok) (hrows : 1 ≤ newRows) (hcols : 1 ≤ newCols)
    (cursor : Option (Nat × Nat)) :
    Runs (g.resizeWithCursor newRows newCols cursor) fun out =>
      Resized g newRows newCols out.1 ∧
      (out.1.raw.length ≤ newRows + g.config.maxScrollback ∨ newCols = g.cols ∧
        ∃ kept, g.canvasLines newRows newCols = some kept ∧
          out.1.raw.length = max newRows kept.length) := by
  apply Runs.ite
  · rintro ⟨hne, -, -⟩
    apply (h.resizeReflowingColumns hcols hne cursor).mono
    rintro out ⟨hresized, hbound⟩
    exact ⟨hresized, .inl hbound⟩
  · intro hsame
    have hcols' : newCols = g.cols := by
      by_contra hne
      exact hsame ⟨hne, hcols, hrows⟩
    apply Runs.bind (h.resizeCanvas newRows newCols)
    rintro g' ⟨hresized, -, hkept⟩
    exact .pure ⟨hresized, .inr ⟨hcols', hkept⟩⟩

/-- A resize of a grid with the number of lines it leaves. Without reflow, which is how an
unchanged width is handled everywhere, the lines are those of the canvas. -/
structure Relined (reflows : Bool) (g : Grid) (newRows newCols : Nat) (g' : Grid) : Prop
    extends Resized g newRows newCols g' where
  lines : g'.raw.length ≤ newRows + g.config.maxScrollback ∨
    (reflows = true → newCols = g.cols) ∧ ∃ kept, g.canvasLines newRows newCols = some kept ∧
      g'.raw.length = max newRows kept.length

theorem Ok.relined_canvas (h : g.Ok) (newRows newCols : Nat) :
    Runs (g.resizeCanvas newRows newCols) (Relined false g newRows newCols) := by
  apply (h.resizeCanvas newRows newCols).mono
  rintro g' ⟨hresized, -, hkept⟩
  exact ⟨hresized, .inr ⟨fun hfalse => Bool.noConfusion hfalse, hkept⟩⟩

theorem Ok.relined (h : g.Ok) (hrows : 1 ≤ newRows) (hcols : 1 ≤ newCols)
    (cursor : Option (Nat × Nat)) :
    Runs (g.resizeWithCursor newRows newCols cursor) fun out =>
      Relined true g newRows newCols out.1 := by
  apply (h.resizeWithCursor hrows hcols cursor).mono
  rintro out ⟨hresized, hlines⟩
  exact ⟨hresized, hlines.imp id fun hcanvas => ⟨fun _ => hcanvas.1, hcanvas.2⟩⟩

/-- A resize to the same size does nothing. -/
theorem Ok.resizeCanvas_same (h : g.Ok) : g.resizeCanvas g.rows g.cols = some g := by
  obtain ⟨g', hg', hresized, -⟩ := h.resizeCanvas g.rows g.cols
  rw [hg', hresized.same rfl rfl]

theorem Ok.resizeWithCursor_same (h : g.Ok) {row col : Nat} (hrow : row < g.rows)
    (hcol : col < g.cols) :
    g.resizeWithCursor g.rows g.cols (some (row, col)) = some (g, some (row, col)) := by
  have hpos : g.visibleCursorFromAbs (g.scrollbackLen + row) col = (row, col) := by
    unfold visibleCursorFromAbs
    congr 1 <;> omega
  unfold Grid.resizeWithCursor
  rw [if_neg fun hne => hne.1 rfl, h.resizeCanvas_same]
  show some (g, some (g.visibleCursorFromAbs (g.scrollbackLen + row) col)) = _
  rw [hpos]

theorem Ok.resizeWithoutCursor_same (h : g.Ok) :
    g.resizeWithCursor g.rows g.cols none = some (g, none) := by
  unfold Grid.resizeWithCursor
  rw [if_neg fun hne => hne.1 rfl, h.resizeCanvas_same]
  rfl

end Grid

end Shux.Vt
