/-
# Which envelopes are canonical

The validator means to accept one encoding of each frame. It accepts more: a string or an
array of the default style may hold blanks that the encoder leaves out, and the span of an
array saturates, so that an array of any length passes in a row of 65535 columns. Of the
envelopes without masks that pass, the ones whose runs do neither are exactly those the
encoder makes again from the cells they decode to.

One array longer than the row is made again: its last entry is the second column of a wide
character that starts in the last column.
-/

import Shux.Vt.CaptureFrame

namespace Shux.Vt

open Checked List FrameEnvelope

/-- A run the encoder can have made: no bare blank in the default style, and no more entries
than a row has columns, but for the second column of a wide character in the last one. -/
def Run.Canonical : Run → Prop
  | .mask _ _ => True
  | .cells _ (.simple text) style => style = .default → ' ' ∉ text
  | .cells _ (.complex entries) style =>
    (entries.length < 2 ^ 16 ∨ entries.length = 2 ^ 16 ∧ entries.getLast? = some []) ∧
      (style = .default → ¬BareBlank entries)

/-- What is in a cell that has been decoded. -/
structure Cell.Decoded (cell : Cell) : Prop extends cell.Kept where
  width_le : cell.width ≤ 2

theorem decoded_empty : Cell.empty.Decoded := ⟨⟨nofun, nofun, nofun⟩, by decide⟩

theorem decoded_wideContinuation : Cell.wideContinuation.Decoded :=
  ⟨⟨nofun, nofun, nofun⟩, by decide⟩

theorem decoded_maskPlaceholder : maskPlaceholder.Decoded := ⟨⟨nofun, nofun, nofun⟩, by decide⟩

theorem decoded_entryCell (style : CapStyle) {entry : List Char} (hentry : entry.isEmpty ≠ true)
    {width : Nat} (hwidth : width ≤ 2) : (entryCell style entry width).Decoded := by
  have hne : entry ≠ [] := by
    rintro rfl
    exact hentry rfl
  have hmade := madeFrom_entryCell style hne width
  exact ⟨hmade.kept, by rw [hmade.width]; exact hwidth⟩

/-- Cells in form, as many as there are columns. -/
structure DecodedLine (cols : Nat) (line : List Cell) : Prop where
  length : line.length = cols
  cells : ∀ cell ∈ line, cell.Decoded

namespace DecodedLine

variable {cols : Nat} {line : List Cell}

theorem blank (cols : Nat) : DecodedLine cols (List.replicate cols .empty) where
  length := length_replicate
  cells := fun _ hmem => eq_of_mem_replicate hmem ▸ decoded_empty

theorem set (h : DecodedLine cols line) (c : Nat) {cell : Cell} (hcell : cell.Decoded) :
    DecodedLine cols (line.set c cell) where
  length := length_set.trans h.length
  cells := fun _ hmem => (mem_or_eq_of_mem_set hmem).elim (h.cells _) fun heq => heq ▸ hcell

theorem decodeSimple (style : CapStyle) {text : List Char} {c : Nat} (h : DecodedLine cols line) :
    DecodedLine cols (decodeSimple style cols text c line) := by
  induction text generalizing c line with
  | nil => exact h
  | cons ch text ih =>
    unfold Shux.Vt.decodeSimple
    split
    · exact h
    · exact ih (h.set c (@decoded_entryCell style [ch] Bool.false_ne_true 1 (by decide)))

theorem decodeComplex (style : CapStyle) {entries : List (List Char)} {c : Nat}
    (h : DecodedLine cols line) : DecodedLine cols (decodeComplex style cols entries c line) := by
  fun_induction Shux.Vt.decodeComplex style cols entries c line with
  | case1 | case2 | case5 => exact h
  | case3 s c line hfits hempty => exact h.set c decoded_empty
  | case4 s c line hfits hne => exact h.set c (decoded_entryCell style hne (by decide))
  | case6 s n rest c line hfits hempty ih => exact ih (h.set c decoded_empty)
  | case7 s n rest c line hfits hne hempty line' line'' ih =>
    apply ih
    show DecodedLine cols (if c + 1 < cols then line'.set (c + 1) .wideContinuation else line')
    have hset : DecodedLine cols line' := h.set c (decoded_entryCell style hne (by decide))
    split
    · exact hset.set (c + 1) decoded_wideContinuation
    · exact hset
  | case8 s n rest c line hfits hne hnext ih =>
    exact ih (h.set c (decoded_entryCell style hne (by decide)))

theorem decodeRunInto (run : Run) (h : DecodedLine cols line) :
    DecodedLine cols (decodeRunInto run line cols) := by
  cases run with
  | mask col cells =>
    unfold Shux.Vt.decodeRunInto
    refine ⟨?_, fun cell hmem => ?_⟩
    · rw [length_append, length_append, length_take, length_replicate, length_drop, h.length]
      omega
    · rcases mem_append.mp hmem with hmem | hmem
      · rcases mem_append.mp hmem with hmem | hmem
        · exact h.cells cell (mem_of_mem_take hmem)
        · exact eq_of_mem_replicate hmem ▸ decoded_maskPlaceholder
      · exact h.cells cell (mem_of_mem_drop hmem)
  | cells col content style =>
    cases content with
    | simple text => exact h.decodeSimple style
    | complex entries => exact h.decodeComplex style

/-- A row of an envelope decodes to cells in form. -/
theorem drawn (cols : Nat) (row : RowRepr) : DecodedLine cols (row.drawn cols) := by
  unfold RowRepr.drawn
  generalize row.runs = runs
  have hfold : ∀ line, DecodedLine cols line →
      DecodedLine cols (runs.foldl (fun line run => Shux.Vt.decodeRunInto run line cols) line) := by
    induction runs with
    | nil => exact fun _ h => h
    | cons run runs ih => exact fun line h => ih _ (h.decodeRunInto run)
  exact hfold _ (blank cols)

end DecodedLine

/-- A run of drawn glyphs is canonical unless it is too long. -/
theorem canonical_contentOf {style : CapStyle} {glyphs : List Cell} (h : Glyphs style glyphs)
    (hdrawn : ∀ glyph ∈ glyphs, glyph ≠ .empty) {col : Nat}
    (hlength : (expand glyphs).length < 2 ^ 16 ∨
      (expand glyphs).length = 2 ^ 16 ∧ (glyphs.flatMap Cell.entries).getLast? = some []) :
    (Run.cells col (contentOf glyphs) style).Canonical := by
  have hblank : style = .default → ¬BareBlank (glyphs.flatMap Cell.entries) := by
    rintro rfl hblank
    exact hdrawn _ (empty_of_bareBlank h hblank) rfl
  unfold contentOf
  split
  · next hall =>
    -- a space of a text is an entry of its own
    rintro rfl hspace
    rw [flatMap_displayText (all_eq_true.mp hall)] at hspace
    obtain ⟨glyph, hmem, hch⟩ := mem_map.mp hspace
    obtain ⟨hwidth, hgrapheme⟩ := isSimple_iff.mp (all_eq_true.mp hall glyph hmem)
    refine hdrawn glyph hmem (eq_empty_of_madeFrom (h.kept glyph hmem) hwidth
      (h.style glyph hmem) ?_)
    unfold Cell.displayText
    rw [hgrapheme, hch]
    rfl
  · exact ⟨by rwa [length_entries], hblank⟩

namespace RowEncoder

variable {cellAt : Nat → Cell} {cols col : Nat} {e : RowEncoder}
variable {held : List Cell}

/-- The glyphs of the run at hand, which ends at `col`. Past the end of the row it ends with a
wide character. -/
structure Carries (cols col : Nat) (b : RunBuilder) (held : List Cell) : Prop where
  entries : b.entries = held.flatMap Cell.entries
  allSimple : b.allSimple = held.all Cell.isSimple
  glyphs : Glyphs b.style held
  drawn : ∀ glyph ∈ held, glyph ≠ .empty
  stop : b.start + (expand held).length = col
  past : col ≤ cols ∨ col = cols + 1 ∧ b.entries.getLast? = some []

/-- The runs so far are canonical, and so will be the one at hand. -/
structure Tidy (cols col : Nat) (e : RowEncoder) : Prop where
  mask : e.maskStart = none
  runs : ∀ run ∈ e.runs, run.Canonical
  cur : ∀ b, e.cur = some b → ∃ held, Carries cols col b held

theorem Carries.finish_eq {b : RunBuilder} (h : Carries cols col b held) :
    b.finish = .cells b.start (contentOf held) b.style := by
  unfold RunBuilder.finish contentOf
  rw [h.entries, h.allSimple]
  split
  · next hall => rw [RunBuilder.flatten_entries (all_eq_true.mp hall)]
  · rfl

theorem Carries.finish {b : RunBuilder} (h : Carries cols col b held)
    (hcols : cols < 2 ^ 16) : b.finish.Canonical := by
  rw [h.finish_eq]
  refine canonical_contentOf h.glyphs h.drawn ?_
  have hstop := h.stop
  rw [← h.entries]
  rcases h.past with hpast | ⟨hpast, hlast⟩
  · exact .inl (by omega)
  · by_cases hlong : (expand held).length = 2 ^ 16
    · exact .inr ⟨hlong, hlast⟩
    · exact .inl (by omega)

theorem Tidy.canonical_finish (h : e.Tidy cols col) (hcols : cols < 2 ^ 16) :
    ∀ run ∈ e.runs ++ (e.cur.map RunBuilder.finish).toList, run.Canonical := by
  intro run hmem
  rcases mem_append.mp hmem with hmem | hmem
  · exact h.runs run hmem
  · obtain ⟨b, hb, rfl⟩ := Option.map_eq_some_iff.mp (Option.mem_toList.mp hmem)
    obtain ⟨held, hheld⟩ := h.cur b hb
    exact hheld.finish hcols

theorem Tidy.flushCells (h : e.Tidy cols col) (hcols : cols < 2 ^ 16) (col' : Nat) :
    e.flushCells.Tidy cols col' where
  mask := h.mask
  runs := h.canonical_finish hcols
  cur := fun _ hb => nomatch hb

/-- A glyph goes into a run that ends where it starts. -/
theorem Carries.grown {b : RunBuilder} {glyph : Cell}
    (h : Carries cols col b held) (hcol : col < cols) (hstyle : CapStyle.fromCell glyph = b.style)
    (hkept : glyph.Kept) (hglyph : glyph.IsGlyph) (hdrawn : glyph ≠ .empty) (colu : Nat) :
    Carries cols (col + glyph.columns.length) (grown b glyph colu) (held ++ [glyph]) := by
  have hmem : ∀ g ∈ held ++ [glyph], g ∈ held ∨ g = glyph := fun g hg => by
    simpa using mem_append.mp hg
  have hentries : (RowEncoder.grown b glyph colu).entries = b.entries ++ glyph.entries := by
    unfold RowEncoder.grown Cell.entries
    split <;> rfl
  have hsimple : glyph.isWide = true → glyph.isSimple = false := by
    unfold Cell.isWide Cell.isSimple
    intro hwide
    rw [beq_iff_eq.mp hwide]
    rfl
  constructor
  · rw [hentries, h.entries, flatMap_append, flatMap_singleton]
  · rw [all_append, ← h.allSimple, all_cons, all_nil, Bool.and_true]
    unfold RowEncoder.grown
    split
    · next hwide => rw [hsimple hwide, Bool.and_false]
    · rfl
  · rw [style_grown]
    exact ⟨fun g hg => (hmem g hg).elim (h.glyphs.kept g) fun heq => heq ▸ hkept,
      fun g hg => (hmem g hg).elim (h.glyphs.glyph g) fun heq => heq ▸ hglyph,
      fun g hg => (hmem g hg).elim (h.glyphs.style g) fun heq => heq ▸ hstyle⟩
  · exact fun g hg => (hmem g hg).elim (h.drawn g) fun heq => heq ▸ hdrawn
  · rw [start_grown, expand_append, length_append, expand_cons, length_append,
      ← Nat.add_assoc, h.stop]
    rfl
  · rw [hentries]
    unfold Cell.columns Cell.entries
    split
    · by_cases hlast : col + 2 ≤ cols
      · exact .inl hlast
      · refine .inr ⟨?_, by simp⟩
        show col + 2 = cols + 1
        omega
    · exact .inl hcol

theorem Tidy.pushCell (h : e.Tidy cols col) (hcols : cols < 2 ^ 16) (hcol : col < cols)
    {glyph : Cell} (hkept : glyph.Kept) (hglyph : glyph.IsGlyph) (hdrawn : glyph ≠ .empty) :
    (e.pushCell glyph (asU16 col)).Tidy cols (col + glyph.columns.length) := by
  have hcolu : asU16 col = col := asU16_of_lt (by omega)
  have hfresh : Carries cols col ⟨col, [], .fromCell glyph, true, col⟩ [] :=
    ⟨rfl, rfl, glyphs_nil _, (fun _ hmem => nomatch hmem), rfl, .inl (Nat.le_of_lt hcol)⟩
  have hnew : Tidy cols (col + glyph.columns.length)
      { e.flushCells with
        cur := some (grown ⟨col, [], .fromCell glyph, true, col⟩ glyph col) } := by
    refine ⟨h.mask, h.canonical_finish hcols, ?_⟩
    rintro b ⟨⟩
    exact ⟨_, hfresh.grown hcol rfl hkept hglyph hdrawn col⟩
  rw [pushCell_eq, hcolu]
  unfold builderAt
  split
  · next b hcur =>
    split
    · next hsame =>
      obtain ⟨held, hheld⟩ := h.cur b hcur
      refine ⟨h.mask, h.runs, ?_⟩
      rintro b' ⟨⟩
      exact ⟨_, hheld.grown hcol hsame.1.symm hkept hglyph hdrawn col⟩
    · exact hnew
  · exact hnew

/-- The loop keeps the runs canonical. -/
theorem Tidy.encodeFrom (hcells : ∀ c, (cellAt c).Decoded) (hcols : cols < 2 ^ 16)
    (h : e.Tidy cols col) :
    ∃ col', (encodeFrom cellAt (fun _ => false) cols e col).Tidy cols col' := by
  -- induction on the columns ahead, of which a wide character takes two
  induction hn : cols - col using Nat.strong_induction_on generalizing e col with
  | _ n ih =>
    subst hn
    rw [RowEncoder.encodeFrom]
    split
    · next hcol =>
      rw [if_neg Bool.false_ne_true, endMask_eq h.mask]
      dsimp only
      split
      · exact ih _ (by omega) (h.flushCells hcols (col + 1)) rfl
      · next hcont =>
        split
        · exact ih _ (by omega) (h.flushCells hcols (col + 1)) rfl
        · next hblank =>
          have hwidth := (hcells col).width_le
          have hglyph : (cellAt col).IsGlyph := by
            have hpos : (cellAt col).width ≠ 0 := fun hzero => hcont (by
              unfold Cell.isWideContinuation
              rw [hzero]
              rfl)
            unfold Cell.IsGlyph
            omega
          have hpush := h.pushCell hcols hcol (hcells col).toKept hglyph
            fun heq => hblank (isBlankDefault_iff.mpr heq)
          rw [length_columns]
          have hpos : 0 < (cellAt col).columns.length := by
            unfold Cell.columns
            split <;> simp
          exact ih _ (by omega) hpush rfl
    · exact ⟨col, h⟩

end RowEncoder

/-- The runs of a row without masks are canonical. -/
theorem canonical_buildRowRuns {g : Grid} {r cols : Nat} (hcols : cols < 2 ^ 16)
    (hcells : ∀ c, (g.shownCell r c).Decoded) :
    ∀ run ∈ buildRowRuns g r cols .new, run.Canonical := by
  have hstart : RowEncoder.Tidy cols 0 ⟨[], none, none⟩ :=
    ⟨rfl, (fun _ hmem => nomatch hmem), (fun _ hb => nomatch hb)⟩
  obtain ⟨col, htidy⟩ := hstart.encodeFrom hcells hcols
  have hclose := RowEncoder.close_eq htidy.mask (asU16 cols)
  intro run hmem
  have hmem' : run ∈ (RowEncoder.encodeFrom (g.shownCell r) (fun _ => false) cols
      ⟨[], none, none⟩ 0).close (asU16 cols) := hmem
  rw [hclose] at hmem'
  exact htidy.canonical_finish hcols run hmem'

/-! ## A wide character in the last column -/

namespace RowEncoder

variable {cellAt : Nat → Cell} {cols col : Nat} {e : RowEncoder} {b : RunBuilder}

/-- A drawn glyph is taken in. -/
theorem encodeFrom_push (hmask : e.maskStart = none) (hcols : cols < 2 ^ 16) (hcol : col < cols)
    (hglyph : (cellAt col).IsGlyph) (hdrawn : cellAt col ≠ .empty) :
    encodeFrom cellAt (fun _ => false) cols e col =
      encodeFrom cellAt (fun _ => false) cols (e.pushCell (cellAt col) col)
        (col + (cellAt col).columns.length) := by
  have hcont : (cellAt col).isWideContinuation = false := by
    unfold Cell.isWideContinuation
    rcases hglyph with hone | htwo
    · rw [hone]
      rfl
    · rw [htwo]
      rfl
  rw [encodeFrom, if_pos hcol, if_neg Bool.false_ne_true, endMask_eq hmask]
  dsimp only
  rw [hcont, if_neg Bool.false_ne_true, if_neg fun h => hdrawn (isBlankDefault_iff.mp h),
    length_columns, asU16_of_lt (by omega)]

theorem pushCell_same {glyph : Cell} (hcur : e.cur = some b)
    (hstyle : b.style = CapStyle.fromCell glyph) (hnext : b.nextCol = col) :
    e.pushCell glyph col = { e with cur := some (grown b glyph col) } := by
  rw [pushCell_eq]
  unfold builderAt
  rw [hcur]
  dsimp only
  rw [if_pos ⟨hstyle, hnext⟩]

theorem pushCell_first {glyph : Cell} (hcur : e.cur = none) :
    e.pushCell glyph col =
      { e with cur := some (grown ⟨col, [], .fromCell glyph, true, col⟩ glyph col) } := by
  rw [pushCell_eq]
  unfold builderAt flushCells
  rw [hcur]
  dsimp only
  rw [Option.map_none, Option.toList_none, append_nil]

/-- Glyphs of the style at hand are taken in one after the other. -/
theorem encodeFrom_run {held glyphs : List Cell} (hmask : e.maskStart = none)
    (hcols : cols < 2 ^ 16) (hfits : col + (expand glyphs).length < cols)
    (hahead : Ahead cellAt col glyphs) (hglyphs : Glyphs b.style glyphs)
    (hdrawn : ∀ glyph ∈ glyphs, glyph ≠ .empty) (hcur : e.cur = some b) (hnext : b.nextCol = col)
    (hheld : Carries cols col b held) :
    ∃ b', encodeFrom cellAt (fun _ => false) cols e col =
        encodeFrom cellAt (fun _ => false) cols { e with cur := some b' }
          (col + (expand glyphs).length) ∧
      Carries cols (col + (expand glyphs).length) b' (held ++ glyphs) ∧
      b'.nextCol = col + (expand glyphs).length ∧ b'.style = b.style ∧ b'.start = b.start := by
  induction glyphs generalizing col e b held with
  | nil =>
    refine ⟨b, ?_, ?_, hnext, rfl, rfl⟩
    · obtain ⟨runs, cur, mask⟩ := e
      cases hcur
      rfl
    · rw [append_nil]
      exact hheld
  | cons glyph glyphs ih =>
    have hself := mem_cons_self (a := glyph) (l := glyphs)
    have hlen : (expand (glyph :: glyphs)).length =
        glyph.columns.length + (expand glyphs).length := by
      rw [expand_cons, length_append]
    rw [hlen, ← Nat.add_assoc] at hfits ⊢
    have hat := hahead.head
    have hstyle := hglyphs.style glyph hself
    rw [encodeFrom_push hmask hcols (by omega) (hat ▸ hglyphs.glyph glyph hself)
      (hat ▸ hdrawn glyph hself), hat, pushCell_same hcur hstyle.symm hnext]
    have hgrown := hheld.grown (by omega) hstyle (hglyphs.kept glyph hself)
      (hglyphs.glyph glyph hself) (hdrawn glyph hself) col
    have hglyphs' : Glyphs (grown b glyph col).style glyphs := by
      rw [style_grown]
      exact hglyphs.tail
    obtain ⟨b', hrun, hcarries, hnext', hstyle', hstart'⟩ :=
      @ih (col + glyph.columns.length) { e with cur := some (grown b glyph col) }
        (grown b glyph col)
        (held ++ [glyph]) hmask hfits hahead.tail hglyphs'
        (fun g hg => hdrawn g (mem_cons_of_mem _ hg)) rfl (nextCol_grown (by omega)) hgrown
    refine ⟨b', hrun, ?_, hnext', hstyle'.trans (style_grown ..), hstart'.trans (start_grown ..)⟩
    rwa [append_assoc] at hcarries

end RowEncoder

/-- A row of one run of drawn glyphs, the last of which is wide and starts in the last column. -/
structure Overhang (cols : Nat) (style : CapStyle) (glyphs : List Cell) (last : Cell) : Prop where
  length : (expand glyphs).length + 1 = cols
  made : Glyphs style (glyphs ++ [last])
  drawn : ∀ glyph ∈ glyphs ++ [last], glyph ≠ .empty
  wide : last.width = 2

namespace Overhang

variable {cols : Nat} {style : CapStyle} {glyphs : List Cell} {last : Cell}

theorem front (h : Overhang cols style glyphs last) : Glyphs style glyphs :=
  ⟨fun g hg => h.made.kept g (mem_append_left _ hg),
    fun g hg => h.made.glyph g (mem_append_left _ hg),
    fun g hg => h.made.style g (mem_append_left _ hg)⟩

theorem last_mem (glyphs : List Cell) (last : Cell) : last ∈ glyphs ++ [last] := by simp

theorem contentOf_eq (h : Overhang cols style glyphs last) :
    contentOf (glyphs ++ [last]) =
      .complex (glyphs.flatMap Cell.entries ++ [last.displayText, []]) := by
  have hsimple : last.isSimple = false := by
    unfold Cell.isSimple
    rw [h.wide]
    rfl
  unfold contentOf
  rw [all_append, all_cons, hsimple, Bool.false_and, Bool.and_false,
    if_neg Bool.false_ne_true, flatMap_append, flatMap_singleton]
  rw [show last.entries = [last.displayText, []] by simp [Cell.entries, Cell.isWide, h.wide]]

/-- The run is drawn up to the edge. -/
theorem drawn_eq (h : Overhang cols style glyphs last) {row : RowRepr}
    (hruns : row.runs = [.cells 0 (contentOf (glyphs ++ [last])) style]) :
    row.drawn cols = expand glyphs ++ [last] := by
  have hcols := h.length
  have hlast := last_mem glyphs last
  have hcell := entryCell_displayText (h.made.kept last hlast)
  have hentry := isEmpty_displayText (h.made.kept last hlast)
  rw [h.made.style last hlast, h.wide] at hcell
  have hstarts : StartsGlyph [last.displayText, []] := by
    rintro entry ⟨⟩
    exact hentry
  unfold RowRepr.drawn
  rw [hruns, foldl_cons, foldl_nil, h.contentOf_eq]
  unfold decodeRunInto
  dsimp only
  rw [decodeComplex_append h.front.kept h.front.glyph h.front.style hstarts length_replicate
    (by omega), decodeComplex, if_neg (by omega), hentry, if_neg Bool.false_ne_true]
  dsimp only [isEmpty_nil]
  rw [if_pos rfl, if_neg (by omega), hcell, decodeComplex, Nat.zero_add, take_zero,
    nil_append, drop_replicate, show cols - (expand glyphs).length = 1 by omega,
    set_append_right _ _ (Nat.le_refl _), Nat.sub_self]
  rfl

/-- The row is encoded as the run it came from. -/
theorem buildRowRuns_eq (h : Overhang cols style glyphs last) (hne : glyphs ≠ [])
    (hcols : cols < 2 ^ 16) {g : Grid} {r : Nat}
    (hrow : g.visibleCells[r]? = some (expand glyphs ++ [last])) :
    buildRowRuns g r cols .new = [.cells 0 (contentOf (glyphs ++ [last])) style] := by
  obtain ⟨first, rest, rfl⟩ := exists_cons_of_ne_nil hne
  have hlen := h.length
  rw [expand_cons, length_append] at hlen
  have hself : first ∈ first :: rest ++ [last] := by simp
  have hlast := last_mem (first :: rest) last
  have hahead : RowEncoder.Ahead (g.shownCell r) 0 (first :: rest) := by
    intro i cell hcell
    have hi := (List.getElem?_eq_some_iff.mp hcell).1
    rw [Nat.zero_add, Grid.shownCell_eq, hrow, Option.bind_some, List.getElem?_append_left hi,
      hcell]
    rfl
  have hend : g.shownCell r (first.columns.length + (expand rest).length) = last := by
    rw [Grid.shownCell_eq, hrow, Option.bind_some, List.getElem?_append_right (by
      rw [expand_cons, length_append]), expand_cons, length_append, Nat.sub_self]
    rfl
  have hstyle := h.made.style first hself
  have hat := hahead.head
  have hfresh : RowEncoder.Carries cols 0 ⟨0, [], .fromCell first, true, 0⟩ [] :=
    ⟨rfl, rfl, glyphs_nil _, (fun _ hmem => nomatch hmem), rfl, .inl (Nat.zero_le _)⟩
  have hpos : 0 < first.columns.length := by
    unfold Cell.columns
    split <;> simp
  have hgrown := hfresh.grown (by omega) rfl (h.made.kept first hself) (h.made.glyph first hself)
    (h.drawn first hself) 0
  rw [Nat.zero_add, nil_append] at hgrown
  have hrest : Glyphs (RowEncoder.grown ⟨0, [], .fromCell first, true, 0⟩ first 0).style rest := by
    rw [RowEncoder.style_grown, hstyle]
    exact h.front.tail
  have htail := hahead.tail
  rw [Nat.zero_add] at htail
  obtain ⟨b, hrun, hcarries, hnext, hbstyle, hbstart⟩ :=
    @RowEncoder.encodeFrom_run (g.shownCell r) cols first.columns.length
      ⟨[], some (RowEncoder.grown ⟨0, [], .fromCell first, true, 0⟩ first 0), none⟩ _ _ _ rfl hcols
      (by omega) htail hrest (fun g hg => h.drawn g (by simp [hg])) rfl
      ((RowEncoder.nextCol_grown (by omega)).trans (Nat.zero_add _)) hgrown
  rw [RowEncoder.style_grown, hstyle] at hbstyle
  rw [RowEncoder.start_grown] at hbstart
  have hlastWide : last.columns.length = 2 := by
    rw [columns_wide h.wide]
    rfl
  have hfinal := hcarries.grown (by omega) ((h.made.style last hlast).trans hbstyle.symm)
    (h.made.kept last hlast) (h.made.glyph last hlast) (h.drawn last hlast)
    (first.columns.length + (expand rest).length)
  show (RowEncoder.encodeFrom (g.shownCell r) (fun _ => false) cols ⟨[], none, none⟩ 0).close
    (asU16 cols) = _
  rw [RowEncoder.encodeFrom_push rfl hcols (by omega) (hat ▸ h.made.glyph first hself)
    (hat ▸ h.drawn first hself), hat, RowEncoder.pushCell_first rfl, Nat.zero_add]
  dsimp only
  rw [hrun, RowEncoder.encodeFrom_push rfl hcols (by omega) (hend ▸ h.made.glyph last hlast)
    (hend ▸ h.drawn last hlast), hend, RowEncoder.pushCell_same rfl
    (hbstyle.trans (h.made.style last hlast).symm) hnext, RowEncoder.encodeFrom, if_neg (by omega),
    RowEncoder.close_eq rfl]
  dsimp only
  rw [Option.map_some, hfinal.finish_eq, RowEncoder.start_grown, RowEncoder.style_grown, hbstart,
    hbstyle]
  rfl

end Overhang

section Validate

variable [Crates]
variable {defaults : TerminalDefaultColors}

omit [Crates] in
/-- A canonical run is plain, or as long as the longest row and one column. -/
theorem canonical_cases {style : CapStyle} {glyphs : List Cell} (h : Glyphs style glyphs)
    {col : Nat}
    (hsimple : glyphs.all Cell.isSimple = true → (expand glyphs).length < 2 ^ 16)
    (hcanon : (Run.cells col (contentOf glyphs) style).Canonical) :
    (Run.cells col (contentOf glyphs) style).Plain ∨
      ∃ front last, glyphs = front ++ [last] ∧ Overhang (2 ^ 16 - 1) style front last := by
  unfold contentOf at hcanon ⊢
  split at hcanon
  · next hall =>
    rw [if_pos hall]
    exact .inl hcanon
  · next hall =>
    rw [if_neg hall]
    obtain ⟨hfits | ⟨hlong, hlast⟩, hblank⟩ := hcanon
    · exact .inl ⟨hfits, hblank⟩
    · rw [length_entries] at hlong
      have hne : glyphs ≠ [] := by
        rintro rfl
        cases hlong
      have hsplit := dropLast_append_getLast hne
      generalize glyphs.dropLast = front, glyphs.getLast hne = last at hsplit
      subst hsplit
      have hkept := h.kept last (Overhang.last_mem front last)
      have hwide : last.width = 2 := by
        -- the last entry is that of the last glyph
        rcases h.glyph last (Overhang.last_mem front last) with hone | htwo
        · rw [flatMap_append, flatMap_singleton,
            show last.entries = [last.displayText] by simp [Cell.entries, Cell.isWide, hone],
            List.getLast?_concat] at hlast
          exact absurd (Option.some.inj hlast) (displayText_ne_nil hkept)
        · exact htwo
      refine .inr ⟨front, last, rfl, ?_, h, ?_, hwide⟩
      · rw [expand_append, length_append, expand_cons, columns_wide hwide] at hlong
        have hlong' : (expand front).length + 2 = 2 ^ 16 := hlong
        omega
      · rintro glyph hmem rfl
        exact hblank (default_of_empty h hmem) (bareBlank_of_empty h hmem)

/-- The runs of a row that passes are plain, or there is one and it hangs over the edge. -/
theorem plain_or_overhang {row cols : Nat} {runs : List Run} (hcanon : ∀ run ∈ runs, run.Canonical)
    (hcells : ∀ run ∈ runs, ∀ col cells, run ≠ .mask col cells) (hcols : cols < 2 ^ 16)
    {expectedMin : Nat} {last : Option (Nat × RunKey)}
    (hvalid : validateRuns row cols runs expectedMin last = .ok ()) :
    (∀ run ∈ runs, run.Plain) ∨ expectedMin = 0 ∧ ∃ style front glyph,
      Overhang cols style front glyph ∧ cols = 2 ^ 16 - 1 ∧
        runs = [.cells 0 (contentOf (front ++ [glyph])) style] := by
  induction runs generalizing expectedMin last with
  | nil => exact .inl fun _ hmem => nomatch hmem
  | cons run runs ih =>
    obtain ⟨col, span, key, hrun, hcol, -, -, hpast, hrest⟩ := validateRuns_cons.mp hvalid
    cases run with
    | mask c n => exact absurd rfl (hcells _ (mem_cons_self ..) c n)
    | cells c content style =>
      obtain ⟨span', hspan, hout⟩ := validateRun_cells.mp hrun
      cases hout
      obtain ⟨glyphs, hne, hglyphs, rfl, hmin, hsimple⟩ := glyphs_of_validateCellsRun style hspan
      have hpos : 0 < (expand glyphs).length := by
        obtain ⟨glyph, rest, rfl⟩ := exists_cons_of_ne_nil hne
        rw [expand_cons, length_append]
        unfold Cell.columns
        split <;> simp
      -- no later run starts in the first column
      have hlater : ∀ run ∈ runs, run.Plain :=
        (ih (fun r hr => hcanon r (mem_cons_of_mem _ hr))
          (fun r hr => hcells r (mem_cons_of_mem _ hr)) hrest).elim id
          fun hzero => absurd hzero.1 (by omega)
      rcases canonical_cases hglyphs hsimple (hcanon _ (mem_cons_self ..)) with
        hplain | ⟨front, glyph, rfl, hover⟩
      · refine .inl fun run hmem => ?_
        rcases mem_cons.mp hmem with rfl | hmem
        · exact hplain
        · exact hlater run hmem
      · have hlong : (expand (front ++ [glyph])).length = 2 ^ 16 := by
          have hlength := hover.length
          rw [expand_append, length_append, expand_cons, columns_wide hover.wide]
          show (expand front).length + 2 = 2 ^ 16
          omega
        obtain rfl : cols = 2 ^ 16 - 1 := by omega
        obtain rfl : col = 0 := by omega
        refine .inr ⟨by omega, style, front, glyph, hover, rfl, ?_⟩
        cases runs with
        | nil => rfl
        | cons run runs =>
          -- a run after it has no column left
          obtain ⟨col', span'', key', hrun', hcol', -, -, hpast', -⟩ := validateRuns_cons.mp hrest
          cases run with
          | mask c n => exact absurd rfl (hcells _ (mem_cons_of_mem _ mem_cons_self) c n)
          | cells c content' style' =>
            obtain ⟨span₂, hspan₂, hout₂⟩ := validateRun_cells.mp hrun'
            cases hout₂
            obtain ⟨glyphs', hne', -, -, hmin', -⟩ := glyphs_of_validateCellsRun style' hspan₂
            obtain ⟨g, rest', rfl⟩ := exists_cons_of_ne_nil hne'
            have hpos' : 0 < (expand (g :: rest')).length := by
              rw [expand_cons, length_append]
              unfold Cell.columns
              split <;> simp
            omega

/-- What `from_parts` reads of a cursor. -/
def Cursor.repr (cursor : Cursor) : CursorRepr :=
  ⟨cursor.row, cursor.col, cursor.visible, cursor.shape⟩

variable {env : FrameEnvelope}

/-- A row that passes and is canonical is encoded again from what it draws. -/
theorem buildRowRuns_drawn {row : RowRepr} {cols r : Nat} {g : Grid} (hcols : cols < 2 ^ 16)
    (hvalid : validateRow row cols = .ok ())
    (hcells : ∀ run ∈ row.runs, ∀ col cells, run ≠ .mask col cells)
    (hcanon : ∀ run ∈ row.runs, run.Canonical)
    (hrow : g.visibleCells[r]? = some (row.drawn cols)) :
    buildRowRuns g r cols .new = row.runs := by
  rcases plain_or_overhang hcanon hcells hcols hvalid with
    hplain | ⟨-, style, front, glyph, hover, hwidest, hruns⟩
  · have hfirst : ∀ style, (none : Option CapStyle) = some style →
        (none : Option (Nat × RunKey)) = some (0, .style style) := fun _ hnone => nomatch hnone
    obtain ⟨glyphs, hencodes, hkept, hglyphs, hlength⟩ :=
      encodes_of_validateRuns hplain hcells (Nat.zero_le cols) hfirst hvalid
    rw [Nat.zero_add] at hlength
    rw [drawn_eq hencodes hkept hglyphs hlength] at hrow
    exact (Grid.encodes_buildRowRuns hcols hglyphs hlength hrow).unique hencodes
  · rw [hover.drawn_eq hruns] at hrow
    rw [hruns]
    refine hover.buildRowRuns_eq ?_ hcols hrow
    rintro rfl
    have hlength := hover.length
    rw [hwidest] at hlength
    cases hlength

omit [Crates] in
/-- The rows an envelope draws have its width. -/
theorem length_toCells (hcells : env.toCells = env.rows.map (RowRepr.drawn env.size.cols)) :
    ∀ cells ∈ env.toCells, cells.length = env.size.cols := by
  intro cells hmem
  rw [hcells] at hmem
  obtain ⟨row, -, rfl⟩ := mem_map.mp hmem
  exact (DecodedLine.drawn env.size.cols row).length

/-- An envelope that passes gives a grid of its size that shows what its rows draw. -/
theorem runs_toGrid_of_validate (hvalid : env.validate = .ok ()) :
    Runs env.toGrid fun g => g.rows = env.size.rows ∧ g.cols = env.size.cols ∧
      g.visibleCells = env.rows.map (RowRepr.drawn env.size.cols) := by
  obtain ⟨-, hcount, hrow, -, hrows⟩ := validate_iff.mp hvalid
  have hcells := toCells_eq hcount fun k row hat => (hrows k row hat).1
  have hlen : env.toCells.length = env.size.rows := by rw [hcells, length_map, hcount]
  refine (runs_toGrid (ne_nil_of_length_pos (by omega)) (length_toCells hcells)).mono ?_
  rintro g ⟨hgrows, hgcols, hvisible⟩
  exact ⟨hgrows.trans hlen, hgcols, hvisible.trans hcells⟩

/-- What is captured from the grid of an envelope has canonical runs. -/
theorem canonical_of_reencode (hvalid : env.validate = .ok ()) {g : Grid}
    (hgrid : env.toGrid = some g) {cursor : Cursor}
    {alt palette : Bool} (h : fromParts g cursor defaults alt palette .new = env) :
    ∀ row ∈ env.rows, ∀ run ∈ row.runs, run.Canonical := by
  obtain ⟨g', hgrid', -, hcols, hvisible⟩ := runs_toGrid_of_validate hvalid
  cases hgrid.symm.trans hgrid'
  intro row hmem run hrun
  -- the row was encoded from the grid
  rw [← h] at hmem
  obtain ⟨r, -, rfl⟩ := mem_map.mp hmem
  refine canonical_buildRowRuns (hcols ▸ env.size.cols_lt) (fun c => ?_) run hrun
  rw [Grid.shownCell_eq, hvisible]
  cases hat : (env.rows.map (RowRepr.drawn env.size.cols))[r]? with
  | none => exact decoded_empty
  | some cells =>
    obtain ⟨row', -, rfl⟩ := mem_map.mp (mem_of_getElem? hat)
    rw [Option.bind_some]
    cases hcell : (row'.drawn env.size.cols)[c]? with
    | none => exact decoded_empty
    | some cell => exact (DecodedLine.drawn env.size.cols row').cells cell (mem_of_getElem? hcell)

/-- An envelope without masks that passes is captured again from its own grid if and only if
its runs are canonical. -/
theorem reencode_iff (hvalid : env.validate = .ok ())
    (hcells : ∀ row ∈ env.rows, ∀ run ∈ row.runs, ∀ col cells, run ≠ .mask col cells)
    {cursor : Cursor} (hcursor : cursor.repr = env.cursor) :
    (∃ g, env.toGrid = some g ∧ fromParts g cursor env.defaults env.altScreen
        env.paletteOverridden .new = env) ↔
      ∀ row ∈ env.rows, ∀ run ∈ row.runs, run.Canonical := by
  constructor
  · rintro ⟨g, hgrid, hsame⟩
    exact canonical_of_reencode hvalid hgrid hsame
  · intro hcanon
    obtain ⟨g, hgrid, hgrows, hgcols, hvisible⟩ := runs_toGrid_of_validate hvalid
    obtain ⟨hschema, hcount, hrow, hcol, hrows⟩ := validate_iff.mp hvalid
    refine ⟨g, hgrid, ?_⟩
    have hrows_lt := env.size.rows_lt
    have hcols_lt := env.size.cols_lt
    have hrow' : asU16 cursor.row = env.cursor.row := by
      rw [← hcursor]
      refine asU16_of_lt ?_
      rw [← hcursor] at hrow
      exact Nat.lt_trans hrow hrows_lt
    have hcol' : asU16 cursor.col = env.cursor.col := by
      rw [← hcursor]
      refine asU16_of_lt ?_
      rw [← hcursor] at hcol
      exact Nat.lt_of_le_of_lt hcol hcols_lt
    have hdrawn : (List.range g.rows).map (fun r =>
        (⟨asU16 r, buildRowRuns g r g.cols .new⟩ : RowRepr)) = env.rows := by
      refine ext_getElem? fun k => ?_
      rw [List.getElem?_map]
      cases hat : env.rows[k]? with
      | none =>
        have hk := List.getElem?_eq_none_iff.mp hat
        rw [List.getElem?_eq_none (by rw [length_range]; omega)]
        rfl
      | some row =>
        have hk := (List.getElem?_eq_some_iff.mp hat).1
        obtain ⟨hnumber, hok⟩ := hrows k row hat
        have hmem := mem_of_getElem? hat
        rw [List.getElem?_range (by omega), Option.map_some, asU16_of_lt (by omega), hgcols,
          buildRowRuns_drawn hcols_lt hok (hcells row hmem) (hcanon row hmem) (by
            rw [hvisible, List.getElem?_map, hat]
            rfl), ← hnumber]
    unfold fromParts
    rw [hdrawn]
    obtain ⟨schema, ⟨rows, cols, hlt, hlt'⟩, alt, defaults, ⟨row, col, visible, shape⟩, palette,
      lines⟩ := env
    cases hcursor
    simp only [FrameEnvelope.mk.injEq, Size.mk.injEq, CursorRepr.mk.injEq]
    refine ⟨hschema.symm, ⟨?_, ?_⟩, trivial, trivial, ⟨hrow', hcol', trivial, trivial⟩, trivial,
      trivial⟩
    · rw [hgrows]
      exact asU16_of_lt hlt
    · rw [hgcols]
      exact asU16_of_lt hlt'

end Validate

/-- A frame of one row with one run in the default style. -/
def textFrame (text : String) (cols : Nat) (hcols : cols < 2 ^ 16) : FrameEnvelope where
  schema := schemaVersion
  size := ⟨1, cols, by decide, hcols⟩
  altScreen := false
  defaults := .default
  cursor := Cursor.new.repr
  paletteOverridden := false
  rows := [⟨0, [.cells 0 (.simple text.toList) .default]⟩]

theorem textFrame_cells (text : String) (cols : Nat) (hcols : cols < 2 ^ 16) :
    ∀ row ∈ (textFrame text cols hcols).rows, ∀ run ∈ row.runs, ∀ col cells,
      run ≠ .mask col cells := by
  intro row hrow run hrun col cells
  obtain rfl := mem_singleton.mp hrow
  obtain rfl := mem_singleton.mp hrun
  exact nofun

/-- The letters of a row are captured again. -/
theorem reencode_ab :
    (∃ g, (textFrame "ab" 3 (by decide)).toGrid = some g ∧
      fromParts g .new .default false false .new = textFrame "ab" 3 (by decide)) ↔
    ∀ row ∈ (textFrame "ab" 3 (by decide)).rows, ∀ run ∈ row.runs, run.Canonical :=
  @reencode_iff plainCrates (textFrame "ab" 3 (by decide)) (by decide)
    (textFrame_cells _ _ _) .new rfl

/-- Letters with a space between them pass, and are captured as two runs. -/
theorem not_reencoded_spaced :
    @FrameEnvelope.validate plainCrates (textFrame "a b" 3 (by decide)) = .ok () ∧
    (∀ row ∈ (textFrame "a b" 3 (by decide)).rows, ∀ run ∈ row.runs, ∀ col cells,
      run ≠ .mask col cells) ∧
    ¬∃ g, (textFrame "a b" 3 (by decide)).toGrid = some g ∧
      fromParts g .new .default false false .new = textFrame "a b" 3 (by decide) := by
  have hvalid : @FrameEnvelope.validate plainCrates (textFrame "a b" 3 (by decide)) = .ok () := by
    decide
  refine ⟨hvalid, textFrame_cells _ _ _, ?_⟩
  rintro ⟨g, hgrid, hsame⟩
  have hcanon := @canonical_of_reencode plainCrates _ _ hvalid g hgrid _ _ _ hsame _
    (mem_singleton_self _) _ (mem_singleton_self _)
  exact hcanon rfl (by decide)

end Shux.Vt
