/-
# The status bar

Three zones share one row. Left starts at the first column and right ends at the last one, and may
touch; the centre is centred as near as they allow, one blank column from each. When they do not
fit, left wins, then right, then centre: a zone short of columns first loses its trailing spaces,
then shows a prefix of its text that ends in an ellipsis, and is dropped when not even one glyph
other than a space and the ellipsis fit.

How the virtual terminal divides a text into cells is a parameter.
-/

import Shux.Core.Text
import Shux.Ui.Buffer

namespace Shux.Ui

open List

/-- One styled segment of the status bar. -/
structure StatusSegment where
  text : Str
  fg : Option CtColor
  bg : Option CtColor
  bold : Bool

def StatusSegment.plain (text : Str) : StatusSegment := ⟨text, none, none, false⟩

/-- A bar with three zones. -/
structure StatusBar where
  left : List StatusSegment
  center : List StatusSegment
  right : List StatusSegment
  bg : Option CtColor

/-- `str::trim_end`. -/
def trimEnd (text : Str) : Str := text.rdropWhile isWhitespace

/-- The style a glyph is painted in. -/
structure GlyphStyle where
  fg : Option CtColor
  bg : Option CtColor
  attrs : RenderAttrs

/-- A character of a text with the columns it takes, and its style. -/
structure Glyph where
  text : Str
  width : Nat
  style : GlyphStyle

section

variable (textCells : Str → List (Str × Nat))

/-- Columns that segments take when painted. -/
def StatusBar.segmentsWidth (segs : List StatusSegment) : Nat :=
  ((segs.flatMap fun s => textCells s.text).map Prod.snd).sum

/-- The glyphs of segments, in the order in which they are painted. -/
def glyphsOf (segs : List StatusSegment) (fallbackBg : Option CtColor) : List Glyph :=
  segs.flatMap fun seg => (textCells seg.text).map fun (text, width) =>
    ⟨text, width, seg.fg, seg.bg <|> fallbackBg, { RenderAttrs.default with bold := seg.bold }⟩

end

/-- A blank of the bar. -/
def blankOf (bg : Option CtColor) : RenderCell := { RenderCell.default with bg := bg }

/-- The row under the brush, where the next glyph goes, where an ellipsis would follow the text so
far, past any spaces it ends in, and the style of the glyph before it. -/
structure Painting where
  row : List RenderCell
  cursor : Nat
  textEnd : Nat
  textStyle : GlyphStyle

/-- The cell of a glyph whose first scalar is `ch`. -/
def Glyph.head (glyph : Glyph) (ch : Char) (more : Str) : RenderCell where
  ch := ch
  fg := glyph.style.fg
  bg := glyph.style.bg
  attrs := glyph.style.attrs
  extended := if more = [] then none
    else some { Vt.ExtendedAttrs.default with grapheme := some glyph.text }
  wideContinuation := false

/-- The second column of a wide glyph. -/
def Glyph.tail (glyph : Glyph) : RenderCell :=
  { RenderCell.default with bg := glyph.style.bg, wideContinuation := true }

/-- Paint one glyph at the cursor. -/
def Painting.put (p : Painting) (glyph : Glyph) (ch : Char) (more : Str) : Painting :=
  let row := p.row.set p.cursor (glyph.head ch more)
  let row := if glyph.width = 2 then row.set (p.cursor + 1) glyph.tail else row
  let cursor := p.cursor + glyph.width
  if Shux.isWhitespace ch then { p with row, cursor }
  else { row, cursor, textEnd := cursor, textStyle := glyph.style }

/-- Paint glyphs up to a column; the flag is set when one did not fit. -/
def paintGlyphs (limit : Nat) : List Glyph → Painting → Painting × Bool
  | [], p => (p, false)
  | glyph :: rest, p =>
    if limit < p.cursor + glyph.width then (p, true)
    else
      match glyph.text with
      | [] => paintGlyphs limit rest p
      | ch :: more => paintGlyphs limit rest (p.put glyph ch more)

/-- `slice::fill` on a part of a row. -/
def fillRange (row : List RenderCell) (start stop : Nat) (cell : RenderCell) : List RenderCell :=
  row.take start ++ List.replicate (stop - start) cell ++ row.drop stop

/-- `slice::rotate_right` on a part of a row. -/
def rotateRange (row : List RenderCell) (start stop shift : Nat) : List RenderCell :=
  let part := (row.take stop).drop start
  row.take start ++ (part.drop (part.length - shift) ++ part.take (part.length - shift)) ++
    row.drop stop

def ellipsis (style : GlyphStyle) : RenderCell :=
  ⟨'…', style.fg, style.bg, style.attrs, none, false⟩

section

variable (textCells : Str → List (Str × Nat))

/-- Columns that are painted when the cell that does not fit was reached: with `cut` the text so
far is followed by an ellipsis. -/
def cutShort (p : Painting) (start stop : Nat) (fallbackBg : Option CtColor) (flushEnd : Bool) :
    List RenderCell × Option (Nat × Nat) :=
  let row := fillRange p.row p.textEnd p.cursor (blankOf fallbackBg)
  if p.textEnd = start then (row, none)
  else
    let row := row.set p.textEnd (ellipsis p.textStyle)
    let shift := if flushEnd then stop - (p.textEnd + 1) else 0
    (rotateRange row start stop shift, some (start + shift, p.textEnd + 1 + shift))

/-- Where painting starts and where it stops, and whether the text is cut there. -/
def zoneLimit (start stop : Nat) (segs : List StatusSegment) (flushEnd : Bool) :
    Option (Nat × Nat × Bool) :=
  let avail := stop - start
  let zw := StatusBar.segmentsWidth textCells segs
  if zw = 0 then none
  else if zw ≤ avail then some (start, stop, false)
  else
    let text := segs.flatMap fun s => s.text
    let padding := zw - StatusBar.segmentsWidth textCells [.plain (trimEnd text)]
    if zw = padding then none
    else if zw - padding ≤ avail then
      let start := if flushEnd then stop - (zw - padding) else start
      some (start, start + zw - padding, false)
    else if 2 ≤ avail then some (start, stop - 1, true)
    else none

/-- Paint segments within `start..stop`. Returns the columns painted. -/
def paintZone (row : List RenderCell) (start stop : Nat) (segs : List StatusSegment)
    (fallbackBg : Option CtColor) (flushEnd : Bool) : List RenderCell × Option (Nat × Nat) :=
  match zoneLimit textCells start stop segs flushEnd with
  | none => (row, none)
  | some (start, limit, cut) =>
    let (p, stopped) := paintGlyphs limit (glyphsOf textCells segs fallbackBg)
      ⟨row, start, start, none, none, .default⟩
    if stopped && cut then cutShort p start stop fallbackBg flushEnd
    else (p.row, some (start, p.cursor))

/-- Render the bar into a row of `width` cells. -/
def StatusBar.renderRow (bar : StatusBar) (width : Nat) : List RenderCell :=
  let w := width
  let row := List.replicate w (blankOf bar.bg)
  let (row, left) := paintZone textCells row 0 w bar.left bar.bg false
  let leftEnd := (left.map Prod.snd).getD 0
  let rw := StatusBar.segmentsWidth textCells bar.right
  let (row, right) := paintZone textCells row (max (w - rw) leftEnd) w bar.right bar.bg true
  let rightStart := right.map Prod.fst
  let afterLeft := leftEnd + if 0 < leftEnd then 1 else 0
  let beforeRight := (rightStart.map fun s => s - 1).getD w
  let cw := StatusBar.segmentsWidth textCells bar.center
  let start :=
    if afterLeft + cw ≤ beforeRight then
      min (max ((w - cw) / 2) afterLeft) (beforeRight - cw)
    else afterLeft
  (paintZone textCells row start beforeRight bar.center bar.bg false).1

end

/-- The columns that glyphs take. -/
def columns (glyphs : List Glyph) : Nat := (glyphs.map Glyph.width).sum

namespace Glyph

/-- The cells of a glyph. -/
def cells (glyph : Glyph) : List RenderCell :=
  match glyph.text with
  | [] => []
  | ch :: more => glyph.head ch more :: if glyph.width = 2 then [glyph.tail] else []

/-- A glyph that shows something and takes one column or two. -/
structure Ok (glyph : Glyph) : Prop where
  text : glyph.text ≠ []
  width : glyph.width = 1 ∨ glyph.width = 2

/-- The ellipsis behind text of a style. -/
def dots (style : GlyphStyle) : Glyph := ⟨['…'], 1, style⟩

theorem cells_dots (style : GlyphStyle) : (dots style).cells = [ellipsis style] := rfl

theorem Ok.length_cells {glyph : Glyph} (h : glyph.Ok) : glyph.cells.length = glyph.width := by
  unfold cells
  cases htext : glyph.text with
  | nil => exact (h.text htext).elim
  | cons ch more =>
    rcases h.width with hone | htwo
    · rw [hone]
      rfl
    · rw [htwo]
      rfl

end Glyph

@[simp] theorem columns_nil : columns [] = 0 := rfl

@[simp] theorem columns_append (glyphs more : List Glyph) :
    columns (glyphs ++ more) = columns glyphs + columns more := by
  unfold columns
  rw [map_append, sum_append]

@[simp] theorem columns_singleton (glyph : Glyph) : columns [glyph] = glyph.width := Nat.add_zero _

theorem length_cells {glyphs : List Glyph} (h : ∀ g ∈ glyphs, g.Ok) :
    (glyphs.flatMap Glyph.cells).length = columns glyphs := by
  induction glyphs with
  | nil => rfl
  | cons g rest ih =>
    obtain ⟨hg, hrest⟩ := forall_mem_cons.mp h
    rw [flatMap_cons, length_append, hg.length_cells, ih hrest]
    rfl

theorem columns_pos {glyphs : List Glyph} (h : ∀ g ∈ glyphs, g.Ok) (hne : glyphs ≠ []) :
    0 < columns glyphs := by
  cases glyphs with
  | nil => exact (hne rfl).elim
  | cons g rest =>
    have hwidth := (h g mem_cons_self).width
    have hsum : columns (g :: rest) = g.width + columns rest := rfl
    omega

/-- Writing into the first of some blanks. -/
theorem set_replicate {painted post : List RenderCell} {n at' : Nat} {blank cell : RenderCell}
    (hat : at' = painted.length) :
    (painted ++ List.replicate (n + 1) blank ++ post).set at' cell =
      painted ++ [cell] ++ List.replicate n blank ++ post := by
  rw [hat, append_assoc, set_append_right _ _ le_rfl, Nat.sub_self, replicate_succ,
    cons_append, set_cons_zero, append_assoc, append_assoc,
    singleton_append]

/-- Whole glyphs were painted behind `pre`, and what is left up to `stop` is blank. -/
structure Painted (pre post : List RenderCell) (bg : Option CtColor) (stop : Nat)
    (painted : List Glyph) (p : Painting) : Prop where
  row : p.row = pre ++ painted.flatMap Glyph.cells ++
    List.replicate (stop - p.cursor) (blankOf bg) ++ post
  cursor : p.cursor = pre.length + columns painted
  kept : ∃ kept blanks, painted = kept ++ blanks ∧ p.textEnd = pre.length + columns kept ∧
    (kept ≠ [] → kept.getLast?.map Glyph.style = some p.textStyle)

variable {pre post : List RenderCell} {bg : Option CtColor} {start stop limit : Nat}
  {painted : List Glyph} {p : Painting}

theorem Painting.cursor_put (p : Painting) (glyph : Glyph) (ch : Char) (more : Str) :
    (p.put glyph ch more).cursor = p.cursor + glyph.width := by
  unfold put
  dsimp only
  split_ifs
  · rfl
  · rfl
  · rfl
  · rfl

theorem Painting.row_put (p : Painting) (glyph : Glyph) (ch : Char) (more : Str) :
    (p.put glyph ch more).row =
      if glyph.width = 2 then
        (p.row.set p.cursor (glyph.head ch more)).set (p.cursor + 1) glyph.tail
      else p.row.set p.cursor (glyph.head ch more) := by
  unfold put
  dsimp only
  split_ifs
  · rfl
  · rfl
  · rfl
  · rfl

theorem Painted.put (h : Painted pre post bg stop painted p) (hok : ∀ g ∈ painted, g.Ok)
    {glyph : Glyph} (hglyph : glyph.Ok) {ch : Char} {more : Str} (htext : glyph.text = ch :: more)
    (hfits : p.cursor + glyph.width ≤ stop) :
    Painted pre post bg stop (painted ++ [glyph]) (p.put glyph ch more) := by
  have hcursor := p.cursor_put glyph ch more
  have hat : p.cursor = (pre ++ painted.flatMap Glyph.cells).length := by
    rw [length_append, length_cells hok, h.cursor]
  have hrow : (p.put glyph ch more).row = pre ++ (painted ++ [glyph]).flatMap Glyph.cells ++
      List.replicate (stop - (p.cursor + glyph.width)) (blankOf bg) ++ post := by
    have hcells : (painted ++ [glyph]).flatMap Glyph.cells =
        painted.flatMap Glyph.cells ++ (glyph.head ch more ::
          if glyph.width = 2 then [glyph.tail] else []) := by
      rw [flatMap_append, flatMap_singleton]
      unfold Glyph.cells
      rw [htext]
    rw [p.row_put, hcells, h.row]
    rcases hglyph.width with hone | htwo
    · have hroom : stop - p.cursor = stop - (p.cursor + 1) + 1 := by omega
      rw [hone, if_neg (by decide), if_neg (by decide), hroom, set_replicate hat]
      rw [append_assoc pre]
    · have hroom : stop - p.cursor = stop - (p.cursor + 2) + 1 + 1 := by omega
      rw [htwo, if_pos rfl, if_pos rfl, hroom, set_replicate hat, set_replicate (by
        rw [length_append, ← hat]
        rfl)]
      simp only [append_assoc, cons_append, nil_append]
  refine ⟨hrow.trans (by rw [hcursor]), ?_, ?_⟩
  · rw [hcursor, h.cursor, columns_append, columns_singleton, Nat.add_assoc]
  · obtain ⟨kept, blanks, hsplit, hend, hstyle⟩ := h.kept
    unfold Painting.put
    dsimp only
    by_cases hspace : Shux.isWhitespace ch = true
    · refine ⟨kept, blanks ++ [glyph], ?_, ?_, ?_⟩
      · rw [hsplit, append_assoc]
      · rw [if_pos hspace]
        exact hend
      · rw [if_pos hspace]
        exact hstyle
    · refine ⟨painted ++ [glyph], [], (append_nil _).symm, ?_, fun _ => ?_⟩
      · rw [if_neg hspace, columns_append, columns_singleton, ← Nat.add_assoc, ← h.cursor]
      · rw [if_neg hspace, List.getLast?_append_cons]
        rfl

/-- The loop paints glyphs as long as they fit. -/
theorem Painted.paintGlyphs (h : Painted pre post bg stop painted p)
    (hpainted : ∀ g ∈ painted, g.Ok) {glyphs : List Glyph} (hok : ∀ g ∈ glyphs, g.Ok)
    (hlimit : limit ≤ stop) :
    ∃ done rest, glyphs = done ++ rest ∧
      Painted pre post bg stop (painted ++ done) (paintGlyphs limit glyphs p).1 ∧
      (p.cursor ≤ limit → (paintGlyphs limit glyphs p).1.cursor ≤ limit) ∧
      ((paintGlyphs limit glyphs p).2 = false → rest = []) ∧
      ((paintGlyphs limit glyphs p).2 = true → ∃ g more, rest = g :: more ∧
        limit < pre.length + columns (painted ++ done) + g.width) := by
  induction glyphs generalizing painted p with
  | nil =>
    refine ⟨[], [], rfl, ?_, id, fun _ => rfl, fun hstop => ?_⟩
    · rw [append_nil]
      exact h
    · cases hstop
  | cons g rest ih =>
    obtain ⟨hg, hrest⟩ := forall_mem_cons.mp hok
    unfold Ui.paintGlyphs
    by_cases hfull : limit < p.cursor + g.width
    · rw [if_pos hfull]
      refine ⟨[], g :: rest, rfl, ?_, id, ?_, fun _ => ⟨g, rest, rfl, ?_⟩⟩
      · rw [append_nil]
        exact h
      · intro hgo
        cases hgo
      · rw [append_nil, ← h.cursor]
        exact hfull
    · rw [if_neg hfull]
      cases htext : g.text with
      | nil => exact (hg.text htext).elim
      | cons ch more =>
        have hput := h.put hpainted hg htext (by omega)
        have hall : ∀ x ∈ painted ++ [g], x.Ok := by
          intro x hx
          rcases mem_append.mp hx with hx | hx
          · exact hpainted x hx
          · exact mem_singleton.mp hx ▸ hg
        obtain ⟨done, left, rfl, hdone, hle, hgo, hstop⟩ := ih hput hall hrest
        have hcursor : (p.put g ch more).cursor = p.cursor + g.width := p.cursor_put g ch more
        refine ⟨g :: done, left, rfl, ?_, fun _ => hle (by omega), hgo, ?_⟩
        · rw [append_cons]
          exact hdone
        · rw [append_cons]
          exact hstop

theorem fillRange_eq (before part after : List RenderCell) (cell : RenderCell) {stop : Nat}
    (hstop : stop = (before ++ part).length) :
    fillRange (before ++ part ++ after) before.length stop cell =
      before ++ List.replicate part.length cell ++ after := by
  have hlength : stop - before.length = part.length := by
    rw [hstop, length_append]
    omega
  unfold fillRange
  rw [hlength, hstop, drop_left, append_assoc before part, take_left]

theorem rotateRange_eq (before part after : List RenderCell) (shift : Nat) {stop : Nat}
    (hstop : stop = (before ++ part).length) :
    rotateRange (before ++ part ++ after) before.length stop shift =
      before ++ (part.drop (part.length - shift) ++ part.take (part.length - shift)) ++ after := by
  have hpart : ((before ++ part ++ after).take stop).drop before.length = part := by
    rw [hstop, take_left, drop_left]
  have hfront : (before ++ part ++ after).take before.length = before := by
    rw [append_assoc, take_left]
  unfold rotateRange
  dsimp only
  rw [hpart, hfront, hstop, drop_left]

/-- Text that is cut keeps its glyphs up to the last one that is no space, with an ellipsis behind
it, at the end of the zone or at its start. -/
theorem Painted.cutShort (h : Painted pre post bg stop painted p) (hok : ∀ g ∈ painted, g.Ok)
    (hroom : p.cursor < stop) (flushEnd : Bool) :
    (∃ kept blanks style gap gap', painted = kept ++ blanks ∧ kept ≠ [] ∧
      kept.getLast?.map Glyph.style = some style ∧
      gap + columns kept + 1 + gap' = stop - pre.length ∧
      (if flushEnd then gap' = 0 else gap = 0) ∧
      Ui.cutShort p pre.length stop bg flushEnd =
        (pre ++ List.replicate gap (blankOf bg) ++
          (kept ++ [Glyph.dots style]).flatMap Glyph.cells ++
          List.replicate gap' (blankOf bg) ++ post,
        some (pre.length + gap, pre.length + gap + columns kept + 1))) ∨
    Ui.cutShort p pre.length stop bg flushEnd =
      (pre ++ List.replicate (stop - pre.length) (blankOf bg) ++ post, none) := by
  obtain ⟨kept, blanks, rfl, hend, hstyle⟩ := h.kept
  have hcursor := h.cursor
  rw [columns_append] at hcursor
  have hkeptok : ∀ g ∈ kept, g.Ok := fun g hg => hok g (mem_append_left _ hg)
  have hblanksok : ∀ g ∈ blanks, g.Ok := fun g hg => hok g (mem_append_right _ hg)
  have hkept := length_cells hkeptok
  have hblanks := length_cells hblanksok
  have hfill : fillRange p.row p.textEnd p.cursor (blankOf bg) =
      pre ++ kept.flatMap Glyph.cells ++ List.replicate (stop - p.textEnd) (blankOf bg) ++
        post := by
    have hfront : p.textEnd = (pre ++ kept.flatMap Glyph.cells).length := by
      rw [length_append, hkept, hend]
    have hback : p.cursor =
        (pre ++ kept.flatMap Glyph.cells ++ blanks.flatMap Glyph.cells).length := by
      rw [length_append, ← hfront, hblanks, hend]
      omega
    have hcount : stop - p.textEnd = columns blanks + (stop - p.cursor) := by omega
    have hrow : p.row = (pre ++ kept.flatMap Glyph.cells) ++ blanks.flatMap Glyph.cells ++
        (List.replicate (stop - p.cursor) (blankOf bg) ++ post) := by
      rw [h.row, flatMap_append]
      simp only [append_assoc]
    rw [hrow]
    nth_rewrite 1 [hfront]
    rw [fillRange_eq _ _ _ _ hback, hblanks, hcount, replicate_add]
    simp only [append_assoc]
  unfold Ui.cutShort
  dsimp only
  rw [hfill]
  by_cases hnil : kept = []
  · subst hnil
    refine .inr ?_
    rw [columns_nil, Nat.add_zero] at hend
    rw [if_pos hend, hend, flatMap_nil, append_nil]
  · have hpos := columns_pos hkeptok hnil
    have hset : (pre ++ kept.flatMap Glyph.cells ++
        List.replicate (stop - p.textEnd) (blankOf bg) ++ post).set p.textEnd
          (ellipsis p.textStyle) =
        pre ++ ((kept ++ [Glyph.dots p.textStyle]).flatMap Glyph.cells ++
          List.replicate (stop - p.textEnd - 1) (blankOf bg)) ++ post := by
      have hcount : stop - p.textEnd = stop - p.textEnd - 1 + 1 := by omega
      rw [hcount, set_replicate (by rw [length_append, hkept, hend]), flatMap_append,
        flatMap_singleton, Glyph.cells_dots]
      simp only [append_assoc, Nat.add_sub_cancel]
    have hcontent : ((kept ++ [Glyph.dots p.textStyle]).flatMap Glyph.cells).length =
        columns kept + 1 := by
      rw [flatMap_append, length_append, hkept]
      rfl
    have hlength : stop = (pre ++ ((kept ++ [Glyph.dots p.textStyle]).flatMap Glyph.cells ++
        List.replicate (stop - p.textEnd - 1) (blankOf bg))).length := by
      rw [length_append, length_append, hcontent, length_replicate]
      omega
    refine .inl ?_
    rw [if_neg (by omega), hset, rotateRange_eq _ _ _ _ hlength, length_append, hcontent,
      length_replicate]
    cases flushEnd with
    | true =>
      refine ⟨kept, blanks, p.textStyle, stop - p.textEnd - 1, 0, rfl, hnil, hstyle hnil,
        by omega, rfl, ?_⟩
      rw [if_pos rfl]
      have hshift : columns kept + 1 + (stop - p.textEnd - 1) - (stop - (p.textEnd + 1)) =
          ((kept ++ [Glyph.dots p.textStyle]).flatMap Glyph.cells).length := by
        rw [hcontent]
        omega
      rw [hshift, drop_left, take_left, replicate_zero, append_nil, ← append_assoc pre]
      refine Prod.ext rfl (congrArg some (Prod.ext ?_ ?_))
      · show pre.length + _ = _
        omega
      · show p.textEnd + 1 + _ = _
        omega
    | false =>
      refine ⟨kept, blanks, p.textStyle, 0, stop - p.textEnd - 1, rfl, hnil, hstyle hnil,
        by omega, rfl, ?_⟩
      rw [if_neg Bool.false_ne_true]
      have hwhole : columns kept + 1 + (stop - p.textEnd - 1) - 0 =
          ((kept ++ [Glyph.dots p.textStyle]).flatMap Glyph.cells ++
            List.replicate (stop - p.textEnd - 1) (blankOf bg)).length := by
        rw [length_append, hcontent, length_replicate]
        rfl
      rw [hwhole, drop_length, take_length, nil_append, replicate_zero,
        append_nil, ← append_assoc pre]
      refine Prod.ext rfl (congrArg some (Prod.ext ?_ ?_))
      · rfl
      · show p.textEnd + 1 + 0 = _
        omega

/-- The text of a zone. -/
def textOf (segs : List StatusSegment) : Str := segs.flatMap fun s => s.text

def Glyph.cell (glyph : Glyph) : Str × Nat := (glyph.text, glyph.width)

section

variable (textCells : Str → List (Str × Nat))

/-- Each cell of a text shows something and takes one column or two. -/
structure CellLaws : Prop where
  text : ∀ text, ∀ cell ∈ textCells text, cell.1 ≠ []
  width : ∀ text, ∀ cell ∈ textCells text, cell.2 = 1 ∨ cell.2 = 2

/-- The cells of a zone's text are those of its segments, and those of its trailing spaces come
last. -/
structure Joins (segs : List StatusSegment) : Prop where
  segments : textCells (textOf segs) = segs.flatMap fun s => textCells s.text
  spaces : textCells (textOf segs) = textCells (trimEnd (textOf segs)) ++
    textCells ((textOf segs).drop (trimEnd (textOf segs)).length)

/-- All glyphs of a zone, or all but those of its trailing spaces. -/
def Whole (segs : List StatusSegment) (bg : Option CtColor) (shown : List Glyph) : Prop :=
  ∃ blanks, glyphsOf textCells segs bg = shown ++ blanks ∧
    (blanks = [] ∨ shown.map Glyph.cell = textCells (trimEnd (textOf segs)))

/-- What a zone may show: all of it, a beginning with an ellipsis behind it, or nothing. -/
inductive Shows (segs : List StatusSegment) (bg : Option CtColor) : List Glyph → Prop
  | whole {shown : List Glyph} (h : Whole textCells segs bg shown) : Shows segs bg shown
  | cut (kept rest : List Glyph) (style : GlyphStyle)
      (hsplit : glyphsOf textCells segs bg = kept ++ rest) (hkept : kept ≠ []) (hrest : rest ≠ [])
      (hstyle : kept.getLast?.map Glyph.style = some style) :
      Shows segs bg (kept ++ [Glyph.dots style])
  | nothing : Shows segs bg []

/-- The columns of a zone without its trailing spaces. -/
def trimmedWidth (segs : List StatusSegment) : Nat :=
  StatusBar.segmentsWidth textCells [.plain (trimEnd (textOf segs))]

/-- The column where that part starts. -/
def textStart (segs : List StatusSegment) (start stop : Nat) (flushEnd : Bool) : Nat :=
  if flushEnd then stop - trimmedWidth textCells segs else start

/-- What painting a zone within a blank part of a row makes of it. -/
structure Zone (segs : List StatusSegment) (bg : Option CtColor) (flushEnd : Bool)
    (pre post : List RenderCell) (room : Nat) (out : List RenderCell × Option (Nat × Nat))
    (shown : List Glyph) (gap gap' : Nat) : Prop where
  row : out.1 = pre ++ List.replicate gap (blankOf bg) ++ shown.flatMap Glyph.cells ++
    List.replicate gap' (blankOf bg) ++ post
  total : gap + columns shown + gap' = room
  ok : ∀ g ∈ shown, g.Ok
  shows : Shows textCells segs bg shown
  unpainted : shown = [] → out.2 = none
  painted : shown ≠ [] → out.2 = some (pre.length + gap, pre.length + gap + columns shown)
  first : shown ≠ [] → flushEnd = false → gap = 0
  last : shown ≠ [] → flushEnd = true → room ≤ StatusBar.segmentsWidth textCells segs → gap' = 0
  yields : ¬ Whole textCells segs bg shown → room < trimmedWidth textCells segs

/-- Painting within a row that is blank between `pre` and `post` makes a zone of it. -/
def PaintsZone (segs : List StatusSegment) (bg : Option CtColor) (flushEnd : Bool)
    (pre post : List RenderCell) (stop : Nat) : Prop :=
  ∃ shown gap gap', Zone textCells segs bg flushEnd pre post (stop - pre.length)
    (paintZone textCells (pre ++ List.replicate (stop - pre.length) (blankOf bg) ++ post) pre.length
      stop segs bg flushEnd) shown gap gap'

end

variable {textCells : Str → List (Str × Nat)}

/-- The cells of concatenations are concatenations. -/
theorem joins_of_append (happend : ∀ a b, textCells (a ++ b) = textCells a ++ textCells b)
    (segs : List StatusSegment) : Joins textCells segs := by
  constructor
  · have hnil : textCells [] = [] := by
      have hlength := congrArg List.length (happend [] [])
      rw [length_append, append_nil] at hlength
      exact length_eq_zero_iff.mp (by omega)
    unfold textOf
    induction segs with
    | nil => exact hnil
    | cons seg rest ih => rw [flatMap_cons, happend, ih, flatMap_cons]
  · rw [← happend]
    congr 1
    obtain ⟨spaces, hspaces⟩ := rdropWhile_prefix Shux.isWhitespace (textOf segs)
    unfold trimEnd
    nth_rewrite 4 [← hspaces]
    rw [drop_left, hspaces]

theorem CellLaws.glyphs (laws : CellLaws textCells) (segs : List StatusSegment)
    (bg : Option CtColor) : ∀ g ∈ glyphsOf textCells segs bg, g.Ok := by
  intro g hg
  obtain ⟨seg, -, hmap⟩ := mem_flatMap.mp hg
  obtain ⟨cell, hcell, rfl⟩ := mem_map.mp hmap
  exact ⟨laws.text _ _ hcell, laws.width _ _ hcell⟩

theorem glyphs_cell (segs : List StatusSegment) (bg : Option CtColor) :
    (glyphsOf textCells segs bg).map Glyph.cell = segs.flatMap fun s => textCells s.text := by
  unfold glyphsOf
  rw [map_flatMap]
  congr 1
  funext seg
  rw [map_map]
  exact map_id _

theorem columns_cell (glyphs : List Glyph) :
    columns glyphs = ((glyphs.map Glyph.cell).map Prod.snd).sum := by
  unfold columns
  rw [map_map]
  rfl

theorem columns_glyphs (segs : List StatusSegment) (bg : Option CtColor) :
    columns (glyphsOf textCells segs bg) = StatusBar.segmentsWidth textCells segs := by
  rw [columns_cell, glyphs_cell]
  rfl

theorem trimmedWidth_eq (segs : List StatusSegment) :
    trimmedWidth textCells segs = ((textCells (trimEnd (textOf segs))).map Prod.snd).sum := by
  unfold trimmedWidth StatusBar.segmentsWidth
  rw [flatMap_singleton]
  rfl

/-- The glyphs of a zone without its trailing spaces, and those of the spaces. -/
theorem Joins.glyphs {segs : List StatusSegment} (h : Joins textCells segs) (bg : Option CtColor) :
    ∃ text spaces, glyphsOf textCells segs bg = text ++ spaces ∧
      text.map Glyph.cell = textCells (trimEnd (textOf segs)) ∧
      columns text = trimmedWidth textCells segs := by
  have hcells := @glyphs_cell textCells segs bg
  rw [← h.segments, h.spaces] at hcells
  obtain ⟨text, spaces, hsplit, htext, -⟩ := map_eq_append_iff.mp hcells
  refine ⟨text, spaces, hsplit, htext, ?_⟩
  rw [columns_cell, htext, trimmedWidth_eq]

theorem trimmedWidth_le {segs : List StatusSegment} (h : Joins textCells segs) :
    trimmedWidth textCells segs ≤ StatusBar.segmentsWidth textCells segs := by
  obtain ⟨text, spaces, hglyphs, -, hwidth⟩ := h.glyphs none
  rw [← hwidth, ← columns_glyphs segs none, hglyphs, columns_append]
  exact Nat.le_add_right _ _

/-- Two beginnings of one list of glyphs, the second as long as it may get within the first. -/
theorem prefix_unique {text spaces done more : List Glyph} {g : Glyph}
    (hok : ∀ x ∈ done, x.Ok) (h : text ++ spaces = done ++ g :: more)
    (hle : columns done ≤ columns text) (hlt : columns text < columns done + g.width) :
    done = text := by
  rcases append_eq_append_iff.mp h with ⟨rest, hdone, -⟩ | ⟨rest, htext, hrest⟩
  · by_contra hne
    have hrestne : rest ≠ [] := by
      rintro rfl
      exact hne (hdone.trans (append_nil _))
    have hpos := columns_pos (fun x hx => hok x (hdone ▸ mem_append_right _ hx)) hrestne
    rw [hdone, columns_append] at hle
    omega
  · cases rest with
    | nil => exact (htext.trans (append_nil _)).symm
    | cons first others =>
      rw [cons_append, List.cons.injEq] at hrest
      have hcolumns : columns (first :: others) = first.width + columns others := rfl
      rw [htext, columns_append, hcolumns, ← hrest.1] at hlt
      omega

/-! ## Painting a zone -/

section

variable {segs : List StatusSegment} {flushEnd : Bool}

/-- A zone that is not painted. -/
theorem zone_nothing (hshows : Shows textCells segs bg [])
    (hyields : ¬ Whole textCells segs bg [] → stop - pre.length < trimmedWidth textCells segs) :
    Zone textCells segs bg flushEnd pre post (stop - pre.length)
      (pre ++ List.replicate (stop - pre.length) (blankOf bg) ++ post, none) [] 0
      (stop - pre.length) where
  row := by rw [replicate_zero, append_nil, flatMap_nil, append_nil]
  total := by rw [columns_nil, Nat.zero_add]
  ok g hg := absurd hg not_mem_nil
  shows := hshows
  unpainted _ := rfl
  painted h := (h rfl).elim
  first h := (h rfl).elim
  last h := (h rfl).elim
  yields := hyields

/-- Nothing was painted yet. -/
theorem painted_nil (pre post : List RenderCell) (bg : Option CtColor) (stop : Nat)
    (style : GlyphStyle) :
    Painted pre post bg stop [] ⟨pre ++ List.replicate (stop - pre.length) (blankOf bg) ++ post,
      pre.length, pre.length, style⟩ where
  row := by rw [flatMap_nil, append_nil]
  cursor := rfl
  kept := ⟨[], [], rfl, rfl, fun h => (h rfl).elim⟩

/-- Glyphs that fit are all painted. -/
theorem paint_whole (pre post : List RenderCell) (bg : Option CtColor) (stop : Nat)
    (hok : ∀ g ∈ glyphs, g.Ok) (style : GlyphStyle)
    (hfits : pre.length + columns glyphs ≤ stop) :
    ∃ p, paintGlyphs stop glyphs ⟨pre ++ List.replicate (stop - pre.length) (blankOf bg) ++ post,
      pre.length, pre.length, style⟩ = (p, false) ∧ Painted pre post bg stop glyphs p := by
  have hstart := painted_nil pre post bg stop style
  obtain ⟨done, rest, hsplit, hdone, -, hgo, hstop⟩ :=
    hstart.paintGlyphs (fun _ hg => absurd hg not_mem_nil) hok le_rfl
  rw [nil_append] at hdone hstop
  cases hstopped : (paintGlyphs stop glyphs _).2 with
  | true =>
    obtain ⟨g, more, rfl, hlt⟩ := hstop hstopped
    have hcolumns : columns (g :: more) = g.width + columns more := rfl
    rw [hsplit, columns_append, hcolumns] at hfits
    omega
  | false =>
    rw [hgo hstopped, append_nil] at hsplit
    refine ⟨_, Prod.ext rfl hstopped, ?_⟩
    rw [hsplit]
    exact hsplit ▸ hdone

/-- The text of a zone without its trailing spaces is painted in as many columns. -/
theorem paint_text (pre post : List RenderCell) (bg : Option CtColor) {text spaces : List Glyph}
    (hok : ∀ g ∈ text ++ spaces, g.Ok)
    (hspaces : spaces ≠ []) (style : GlyphStyle) :
    ∃ p, paintGlyphs (pre.length + columns text) (text ++ spaces)
      ⟨pre ++ List.replicate (columns text) (blankOf bg) ++ post, pre.length, pre.length, style⟩ =
        (p, true) ∧ Painted pre post bg (pre.length + columns text) text p := by
  have hstart := painted_nil pre post bg (pre.length + columns text) style
  rw [Nat.add_sub_cancel_left] at hstart
  obtain ⟨done, rest, hsplit, hdone, hle, hgo, hstop⟩ :=
    hstart.paintGlyphs (fun _ hg => absurd hg not_mem_nil) hok le_rfl
  rw [nil_append] at hdone hstop
  have hdoneok : ∀ g ∈ done, g.Ok := fun g hg => hok g (hsplit ▸ mem_append_left _ hg)
  have hcursor := hle (Nat.le_add_right _ _)
  rw [hdone.cursor] at hcursor
  cases hstopped : (paintGlyphs (pre.length + columns text) (text ++ spaces) _).2 with
  | true =>
    obtain ⟨g, more, rfl, hlt⟩ := hstop hstopped
    have htext : done = text := prefix_unique hdoneok hsplit (by omega) (by omega)
    exact ⟨_, Prod.ext rfl hstopped, htext ▸ hdone⟩
  | false =>
    have hall := hgo hstopped
    rw [hall, append_nil] at hsplit
    have hpos := columns_pos (fun g hg => hok g (mem_append_right _ hg)) hspaces
    rw [← hsplit, columns_append] at hcursor
    omega

/-- Where painting starts and stops, by the columns of the zone without the spaces at its end. -/
theorem zoneLimit_eq (hjoins : Joins textCells segs) (start stop : Nat) (flushEnd : Bool) :
    zoneLimit textCells start stop segs flushEnd =
      if StatusBar.segmentsWidth textCells segs = 0 then none
      else if StatusBar.segmentsWidth textCells segs ≤ stop - start then some (start, stop, false)
      else if trimmedWidth textCells segs = 0 then none
      else if trimmedWidth textCells segs ≤ stop - start then
        some (textStart textCells segs start stop flushEnd,
          textStart textCells segs start stop flushEnd + trimmedWidth textCells segs, false)
      else if 2 ≤ stop - start then some (start, stop - 1, true)
      else none := by
  have hle := trimmedWidth_le hjoins
  have htrim : StatusBar.segmentsWidth textCells
      [.plain (trimEnd (segs.flatMap fun s => s.text))] = trimmedWidth textCells segs := rfl
  unfold zoneLimit
  dsimp only
  rw [htrim]
  generalize StatusBar.segmentsWidth textCells segs = width at hle ⊢
  generalize htext : trimmedWidth textCells segs = text at hle ⊢
  have hback : width - (width - text) = text := by omega
  have hend (s : Nat) : s + width - (width - text) = s + text := by omega
  rw [hback, hend]
  by_cases hzero : width = 0
  · rw [if_pos hzero, if_pos hzero]
  · have hblank : width = width - text ↔ text = 0 := by omega
    simp only [hblank, textStart, htext]

/-- A zone with room for all of it. -/
theorem paintZone_all (pre post : List RenderCell) (bg : Option CtColor) (flushEnd : Bool)
    (laws : CellLaws textCells) (hle : pre.length ≤ stop)
    (hpos : StatusBar.segmentsWidth textCells segs ≠ 0)
    (hfits : StatusBar.segmentsWidth textCells segs ≤ stop - pre.length)
    (hlimit : zoneLimit textCells pre.length stop segs flushEnd = some (pre.length, stop, false)) :
    PaintsZone textCells segs bg flushEnd pre post stop := by
  have hok := laws.glyphs segs bg
  have hcolumns := @columns_glyphs textCells segs bg
  have hwhole : Whole textCells segs bg (glyphsOf textCells segs bg) :=
    ⟨[], (append_nil _).symm, .inl rfl⟩
  obtain ⟨p, hpaint, hpainted⟩ := paint_whole pre post bg stop hok ⟨none, none, .default⟩
    (by omega)
  have hcursor := hpainted.cursor
  unfold PaintsZone paintZone
  rw [hlimit]
  dsimp only
  rw [hpaint]
  refine ⟨glyphsOf textCells segs bg, 0, stop - p.cursor, ?_, by omega, hok, .whole hwhole, ?_, ?_,
    fun _ _ => rfl, ?_, fun h => (h hwhole).elim⟩
  · rw [replicate_zero, append_nil]
    exact hpainted.row
  · intro hnil
    rw [hnil, columns_nil] at hcolumns
    exact (hpos hcolumns.symm).elim
  · intro _
    show some (pre.length, p.cursor) = _
    rw [hcursor]
    rfl
  · intro _ _ hroom
    omega

/-- A zone that fits without the spaces at its end. -/
theorem paintZone_text (pre post : List RenderCell) (bg : Option CtColor) {start : Nat}
    (laws : CellLaws textCells) (hjoins : Joins textCells segs)
    (hpos : trimmedWidth textCells segs ≠ 0)
    (hless : trimmedWidth textCells segs < StatusBar.segmentsWidth textCells segs)
    (hstart : start = textStart textCells segs pre.length stop flushEnd)
    (hroom : trimmedWidth textCells segs ≤ stop - pre.length)
    (hlimit : zoneLimit textCells pre.length stop segs flushEnd =
      some (start, start + trimmedWidth textCells segs, false)) :
    PaintsZone textCells segs bg flushEnd pre post stop := by
  obtain ⟨text, spaces, hsplit, htext, hwidth⟩ := hjoins.glyphs bg
  unfold textStart at hstart
  rw [← hwidth] at hpos hless hstart hroom hlimit
  have hok := laws.glyphs segs bg
  have hwhole : Whole textCells segs bg text := ⟨spaces, hsplit, .inr htext⟩
  have htextok : ∀ g ∈ text, g.Ok := fun g hg => hok g (hsplit ▸ mem_append_left _ hg)
  have htextne : text ≠ [] := by
    rintro rfl
    exact hpos columns_nil
  have hspaces : spaces ≠ [] := by
    rintro rfl
    rw [← columns_glyphs segs bg, hsplit, append_nil] at hless
    omega
  have hbounds : pre.length ≤ start ∧ start + columns text ≤ stop := by
    rw [hstart]
    split_ifs
    · exact ⟨by omega, by omega⟩
    · exact ⟨le_rfl, by omega⟩
  have hlength : (pre ++ List.replicate (start - pre.length) (blankOf bg)).length = start := by
    rw [length_append, length_replicate]
    omega
  have hcount : stop - pre.length =
      (start - pre.length) + columns text + (stop - start - columns text) := by
    omega
  have hrow : pre ++ List.replicate (stop - pre.length) (blankOf bg) ++ post =
      pre ++ List.replicate (start - pre.length) (blankOf bg) ++
        List.replicate (columns text) (blankOf bg) ++
          (List.replicate (stop - start - columns text) (blankOf bg) ++ post) := by
    rw [hcount, replicate_add, replicate_add]
    simp only [append_assoc]
  obtain ⟨p, hpaint, hpainted⟩ := paint_text
    (pre ++ List.replicate (start - pre.length) (blankOf bg))
    (List.replicate (stop - start - columns text) (blankOf bg) ++ post) bg (hsplit ▸ hok) hspaces
    ⟨none, none, .default⟩
  rw [hlength] at hpaint hpainted
  have hcursor := hpainted.cursor
  rw [hlength] at hcursor
  unfold PaintsZone paintZone
  rw [hlimit]
  dsimp only
  rw [hrow, hsplit, hpaint, Bool.and_false, if_neg Bool.false_ne_true]
  refine ⟨text, start - pre.length, stop - start - columns text, ?_, by omega, htextok,
    .whole hwhole, fun hnil => (htextne hnil).elim, fun _ => ?_, ?_, ?_, fun h => (h hwhole).elim⟩
  · have hdone : p.row = _ := hpainted.row
    rw [hcursor, Nat.sub_self, replicate_zero, append_nil] at hdone
    rw [← append_assoc] at hdone
    exact hdone
  · rw [hcursor]
    refine congrArg some (Prod.ext ?_ ?_)
    · show start = _
      omega
    · show start + columns text = _
      omega
  · rintro - rfl
    rw [if_neg Bool.false_ne_true] at hstart
    omega
  · rintro - rfl -
    rw [if_pos rfl] at hstart
    omega

/-- A zone of which a beginning is painted with an ellipsis behind it. -/
theorem paintZone_cut (pre post : List RenderCell) (bg : Option CtColor) (flushEnd : Bool)
    (laws : CellLaws textCells) (hle : pre.length ≤ stop) (htwo : 2 ≤ stop - pre.length)
    (htext : stop - pre.length < trimmedWidth textCells segs)
    (hless : stop - pre.length < StatusBar.segmentsWidth textCells segs)
    (hlimit : zoneLimit textCells pre.length stop segs flushEnd =
      some (pre.length, stop - 1, true)) :
    PaintsZone textCells segs bg flushEnd pre post stop := by
  have hok := laws.glyphs segs bg
  have hstart := painted_nil pre post bg stop ⟨none, none, .default⟩
  obtain ⟨done, rest, hsplit, hdone, hcursor, hgo, hstop⟩ :=
    hstart.paintGlyphs (fun _ hg => absurd hg not_mem_nil) hok (Nat.sub_le stop 1)
  have hlast := hcursor (show pre.length ≤ stop - 1 by omega)
  rw [nil_append] at hdone hstop
  have hdoneok : ∀ g ∈ done, g.Ok := fun g hg => hok g (hsplit ▸ mem_append_left _ hg)
  have hstopped : (paintGlyphs (stop - 1) (glyphsOf textCells segs bg)
      ⟨pre ++ List.replicate (stop - pre.length) (blankOf bg) ++ post, pre.length, pre.length,
        none, none, .default⟩).2 = true := by
    by_contra hno
    have hall := hgo (Bool.eq_false_iff.mpr hno)
    rw [hall, append_nil] at hsplit
    rw [hdone.cursor, ← hsplit, columns_glyphs] at hlast
    omega
  obtain ⟨g, more, rfl, -⟩ := hstop hstopped
  unfold PaintsZone paintZone
  rw [hlimit]
  dsimp only
  rw [hstopped, Bool.true_and, if_pos rfl]
  rcases hdone.cutShort hdoneok (by omega) flushEnd with
    ⟨kept, blanks, style, gap, gap', rfl, hkept, hstyle, hgap, hflush, hout⟩ | hout
  · rw [hout]
    have hsize : columns (kept ++ [Glyph.dots style]) = columns kept + 1 := columns_append _ _
    have hne : kept ++ [Glyph.dots style] ≠ [] := by simp
    refine ⟨kept ++ [Glyph.dots style], gap, gap', rfl, ?_, ?_, ?_, fun h => (hne h).elim, ?_, ?_,
      ?_, fun _ => htext⟩
    · rw [hsize]
      omega
    · intro x hx
      rcases mem_append.mp hx with hx | hx
      · exact hdoneok x (mem_append_left _ hx)
      · rw [mem_singleton.mp hx]
        exact ⟨cons_ne_nil _ _, .inl rfl⟩
    · refine .cut kept (blanks ++ g :: more) style ?_ hkept (by simp) hstyle
      rw [hsplit, append_assoc]
    · intro _
      rw [hsize]
      rfl
    · rintro - rfl
      exact hflush
    · rintro - rfl -
      exact hflush
  · rw [hout]
    exact ⟨[], 0, _, zone_nothing .nothing fun _ => htext⟩

/-- A zone without glyphs to paint, or without room for one and the ellipsis. -/
theorem paintZone_none {pre post : List RenderCell} {bg : Option CtColor}
    (hshows : Shows textCells segs bg [])
    (hyields : ¬ Whole textCells segs bg [] → stop - pre.length < trimmedWidth textCells segs)
    (hlimit : zoneLimit textCells pre.length stop segs flushEnd = none) :
    PaintsZone textCells segs bg flushEnd pre post stop := by
  unfold PaintsZone paintZone
  rw [hlimit]
  exact ⟨[], 0, _, zone_nothing hshows hyields⟩

/-- A zone whose text has no columns has no glyphs but those of spaces. -/
theorem Joins.whole_nil (hjoins : Joins textCells segs) (laws : CellLaws textCells)
    (bg : Option CtColor) (hzero : trimmedWidth textCells segs = 0) :
    Whole textCells segs bg [] := by
  obtain ⟨text, spaces, hsplit, htext, hwidth⟩ := hjoins.glyphs bg
  have hnil : text = [] := by
    by_contra hne
    have hpos := columns_pos
      (fun g hg => laws.glyphs segs bg g (hsplit ▸ mem_append_left _ hg)) hne
    omega
  subst hnil
  exact ⟨spaces, hsplit, .inr htext⟩

theorem paintZone_zone (pre post : List RenderCell) (bg : Option CtColor) (stop : Nat)
    (flushEnd : Bool) (laws : CellLaws textCells) (hjoins : Joins textCells segs)
    (hle : pre.length ≤ stop) :
    PaintsZone textCells segs bg flushEnd pre post stop := by
  have htrim := trimmedWidth_le hjoins
  have hlimit := zoneLimit_eq hjoins pre.length stop flushEnd
  split_ifs at hlimit with hzero hfits hblank hroom htwo
  · have hwhole := hjoins.whole_nil laws bg (by omega)
    exact paintZone_none (.whole hwhole) (fun h => (h hwhole).elim) hlimit
  · exact paintZone_all pre post bg flushEnd laws hle hzero hfits hlimit
  · have hwhole := hjoins.whole_nil laws bg hblank
    exact paintZone_none (.whole hwhole) (fun h => (h hwhole).elim) hlimit
  · exact paintZone_text pre post bg laws hjoins hblank (by omega) rfl hroom hlimit
  · exact paintZone_cut pre post bg flushEnd laws hle htwo (by omega) (by omega) hlimit
  · exact paintZone_none .nothing (fun _ => by omega) hlimit

/-- With no room at all nothing is painted. -/
theorem paintZone_no_room (hle : stop ≤ start) (row : List RenderCell) :
    paintZone textCells row start stop segs bg flushEnd = (row, none) := by
  have hroom : stop - start = 0 := by omega
  unfold paintZone zoneLimit
  dsimp only
  rw [hroom]
  by_cases hzero : StatusBar.segmentsWidth textCells segs = 0
  · rw [if_pos hzero]
  · rw [if_neg hzero, if_neg (by omega)]
    by_cases hblank : StatusBar.segmentsWidth textCells segs =
        StatusBar.segmentsWidth textCells segs -
          StatusBar.segmentsWidth textCells [.plain (trimEnd (segs.flatMap fun s => s.text))]
    · rw [if_pos hblank]
    · rw [if_neg hblank, if_neg (by omega), if_neg (by decide)]

/-- A zone at the front of a blank row. -/
theorem paintZone_front (bg : Option CtColor) (laws : CellLaws textCells)
    (hjoins : Joins textCells segs) (w : Nat) :
    ∃ shown, (∀ g ∈ shown, g.Ok) ∧ Shows textCells segs bg shown ∧ columns shown ≤ w ∧
      (¬ Whole textCells segs bg shown → w < trimmedWidth textCells segs) ∧
      ∃ painted, paintZone textCells (List.replicate w (blankOf bg)) 0 w segs bg false =
        (shown.flatMap Glyph.cells ++ List.replicate (w - columns shown) (blankOf bg), painted) ∧
        (painted.map Prod.snd).getD 0 = columns shown := by
  obtain ⟨shown, gap, gap', hzone⟩ := paintZone_zone [] [] bg w false laws hjoins (Nat.zero_le w)
  rw [length_nil, Nat.sub_zero, nil_append, append_nil] at hzone
  have htotal := hzone.total
  have hrow := hzone.row
  rw [nil_append, append_nil] at hrow
  refine ⟨shown, hzone.ok, hzone.shows, by omega, hzone.yields, _, Prod.ext ?_ rfl, ?_⟩
  · show _ = shown.flatMap Glyph.cells ++ _
    by_cases hnil : shown = []
    · subst hnil
      rw [hrow, flatMap_nil, append_nil, ← replicate_add, nil_append, ← htotal, columns_nil]
      rfl
    · have hgap := hzone.first hnil rfl
      rw [hrow, hgap, replicate_zero, nil_append]
      congr 2
      omega
  · by_cases hnil : shown = []
    · have hnone := hzone.unpainted hnil
      show ((paintZone textCells _ 0 w segs bg false).2.map Prod.snd).getD 0 = _
      rw [hnone, hnil]
      rfl
    · have hsome := hzone.painted hnil
      show ((paintZone textCells _ 0 w segs bg false).2.map Prod.snd).getD 0 = _
      rw [hsome, hzone.first hnil rfl]
      exact Nat.zero_add _

/-- A zone at the end of a row, in front of which another zone was painted. -/
theorem paintZone_back (front : List RenderCell) (bg : Option CtColor) (w : Nat)
    (laws : CellLaws textCells) (hjoins : Joins textCells segs) (hfront : front.length ≤ w) :
    ∃ shown, (∀ g ∈ shown, g.Ok) ∧ Shows textCells segs bg shown ∧
      front.length + columns shown ≤ w ∧
      (¬ Whole textCells segs bg shown → w < front.length + trimmedWidth textCells segs) ∧
      ∃ painted, paintZone textCells
          (front ++ List.replicate (w - front.length) (blankOf bg))
          (max (w - StatusBar.segmentsWidth textCells segs) front.length) w segs bg true =
        (front ++ List.replicate (w - front.length - columns shown) (blankOf bg) ++
          shown.flatMap Glyph.cells, painted) ∧
        painted.map Prod.fst = if shown.isEmpty then none else some (w - columns shown) := by
  obtain ⟨start, hstart⟩ : ∃ start,
    start = max (w - StatusBar.segmentsWidth textCells segs) front.length := ⟨_, rfl⟩
  have hlength : (front ++ List.replicate (start - front.length) (blankOf bg)).length = start := by
    rw [length_append, length_replicate]
    omega
  obtain ⟨shown, gap, gap', hzone⟩ := paintZone_zone
    (front ++ List.replicate (start - front.length) (blankOf bg)) [] bg w true laws hjoins
    (by omega)
  have hsplit : front ++ List.replicate (w - front.length) (blankOf bg) =
      front ++ List.replicate (start - front.length) (blankOf bg) ++
        List.replicate (w - start) (blankOf bg) := by
    rw [append_assoc, ← replicate_add]
    congr 2
    omega
  rw [hlength, append_nil, ← hsplit] at hzone
  have htotal := hzone.total
  have hrow := hzone.row
  rw [append_nil] at hrow
  rw [← hstart]
  refine ⟨shown, hzone.ok, hzone.shows, by omega, fun hnot => ?_, _, Prod.ext ?_ rfl, ?_⟩
  · have hyields := hzone.yields hnot
    by_cases hfits : StatusBar.segmentsWidth textCells segs ≤ w - front.length
    · -- the zone fits, and then it does not give way
      have htrimmed := trimmedWidth_le hjoins
      omega
    · omega
  · show _ = front ++ _ ++ _
    by_cases hnil : shown = []
    · subst hnil
      rw [hrow, flatMap_nil, append_nil, append_nil, append_assoc,
        append_assoc, ← replicate_add, ← replicate_add, columns_nil]
      rw [columns_nil] at htotal
      congr 2
      omega
    · have hgap := hzone.last hnil rfl (by omega)
      rw [hrow, hgap, replicate_zero, append_nil, append_assoc front, ← replicate_add]
      congr 3
      omega
  · by_cases hnil : shown = []
    · have hnone := hzone.unpainted hnil
      show (paintZone textCells _ start w segs bg true).2.map Prod.fst = _
      rw [hnone, hnil]
      rfl
    · have hgap := hzone.last hnil rfl (by omega)
      have hsome := hzone.painted hnil
      show (paintZone textCells _ start w segs bg true).2.map Prod.fst = _
      rw [hsome, isEmpty_eq_false_iff.mpr hnil, hlength]
      refine congrArg some ?_
      show start + gap = _
      omega

/-- A zone between two others. -/
theorem paintZone_between (front back : List RenderCell) (bg : Option CtColor)
    (room start stop : Nat) (laws : CellLaws textCells) (hjoins : Joins textCells segs)
    (hstart : front.length ≤ start)
    (hstop : stop ≤ front.length + room) :
    ∃ shown gap gap', (∀ g ∈ shown, g.Ok) ∧ Shows textCells segs bg shown ∧
      gap + columns shown + gap' = room ∧
      (¬ Whole textCells segs bg shown →
        stop < start + trimmedWidth textCells segs ∨ stop < start) ∧
      (shown ≠ [] → start ≤ front.length + gap ∧ front.length + gap + columns shown ≤ stop) ∧
      (paintZone textCells (front ++ List.replicate room (blankOf bg) ++ back) start stop segs bg
        false).1 =
        front ++ List.replicate gap (blankOf bg) ++ shown.flatMap Glyph.cells ++
          List.replicate gap' (blankOf bg) ++ back := by
  rcases Nat.lt_or_ge stop start with hlt | hle
  · refine ⟨[], 0, room, fun g hg => absurd hg not_mem_nil, .nothing, ?_, fun _ => .inr hlt,
      fun h => (h rfl).elim, ?_⟩
    · rw [columns_nil, Nat.zero_add]
    · rw [paintZone_no_room hlt.le, replicate_zero, append_nil, flatMap_nil, append_nil]
  · have hlength :
        (front ++ List.replicate (start - front.length) (blankOf bg)).length = start := by
      rw [length_append, length_replicate]
      omega
    obtain ⟨shown, gap, gap', hzone⟩ := paintZone_zone
      (front ++ List.replicate (start - front.length) (blankOf bg))
      (List.replicate (front.length + room - stop) (blankOf bg) ++ back) bg stop false laws hjoins
      (by omega)
    have hsplit : front ++ List.replicate room (blankOf bg) ++ back =
        front ++ List.replicate (start - front.length) (blankOf bg) ++
          List.replicate (stop - start) (blankOf bg) ++
            (List.replicate (front.length + room - stop) (blankOf bg) ++ back) := by
      have hcount : room =
          start - front.length + (stop - start) + (front.length + room - stop) := by
        omega
      nth_rewrite 1 [hcount]
      rw [replicate_add, replicate_add]
      simp only [append_assoc]
    rw [hlength, ← hsplit] at hzone
    have htotal := hzone.total
    refine ⟨shown, start - front.length + gap, gap' + (front.length + room - stop), hzone.ok,
      hzone.shows, by omega, fun hnot => ?_, fun _ => ?_, ?_⟩
    · have hyields := hzone.yields hnot
      exact .inl (by omega)
    · exact ⟨by omega, by omega⟩
    · rw [hzone.row, replicate_add, replicate_add]
      simp only [append_assoc]

end

/-- The layout of a row: three zones with whole glyphs, in their order and with blanks between
them, the right one at the end. Each shows its text up to trailing spaces, or a beginning with an
ellipsis, or nothing; left gives way only when it does not fit by itself, right only to left, and
the centre, with its blank columns, to both. -/
theorem StatusBar.renderRow_layout (laws : CellLaws textCells) (bar : StatusBar) (width : Nat)
    (hleft : Joins textCells bar.left) (hcenter : Joins textCells bar.center)
    (hright : Joins textCells bar.right) :
    (bar.renderRow textCells width).length = width ∧
    ∃ left center right gap gap',
      bar.renderRow textCells width =
        left.flatMap Glyph.cells ++ List.replicate gap (blankOf bar.bg) ++
          center.flatMap Glyph.cells ++ List.replicate gap' (blankOf bar.bg) ++
            right.flatMap Glyph.cells ∧
      (∀ g ∈ left ++ center ++ right, g.Ok) ∧
      Shows textCells bar.left bar.bg left ∧ Shows textCells bar.center bar.bg center ∧
      Shows textCells bar.right bar.bg right ∧
      (center ≠ [] → (left ≠ [] → 0 < gap) ∧ (right ≠ [] → 0 < gap')) ∧
      (¬ Whole textCells bar.left bar.bg left → width < trimmedWidth textCells bar.left) ∧
      (¬ Whole textCells bar.right bar.bg right →
        width < columns left + trimmedWidth textCells bar.right) ∧
      (¬ Whole textCells bar.center bar.bg center →
        width < columns left + (if left.isEmpty then 0 else 1) + trimmedWidth textCells bar.center +
          (if right.isEmpty then 0 else 1) + columns right) := by
  obtain ⟨left, hleftok, hleftshows, hleftle, hleftyields, leftPainted, hleftrow, hleftEnd⟩ :=
    paintZone_front bar.bg laws hleft width
  have hleftcells := length_cells hleftok
  obtain ⟨right, hrightok, hrightshows, hrightle, hrightyields, rightPainted, hrightrow,
    hrightStart⟩ := paintZone_back (left.flatMap Glyph.cells) bar.bg width laws hright
      (by omega)
  rw [hleftcells] at hrightle hrightyields hrightrow
  obtain ⟨a, ha⟩ : ∃ a, a = if left.isEmpty then 0 else 1 := ⟨_, rfl⟩
  obtain ⟨b, hb⟩ : ∃ b, b = if right.isEmpty then 0 else 1 := ⟨_, rfl⟩
  have hafter : columns left + (if 0 < columns left then 1 else 0) = columns left + a := by
    rw [ha]
    by_cases hnil : left = []
    · rw [hnil]
      rfl
    · rw [if_pos (columns_pos hleftok hnil), isEmpty_eq_false_iff.mpr hnil]
      rfl
  have hbefore : ((rightPainted.map Prod.fst).map fun s => s - 1).getD width =
      width - columns right - b := by
    rw [hrightStart, hb]
    by_cases hnil : right = []
    · rw [hnil]
      rfl
    · rw [isEmpty_eq_false_iff.mpr hnil]
      rfl
  obtain ⟨start, hstart⟩ : ∃ start, start =
      if columns left + a + segmentsWidth textCells bar.center ≤ width - columns right - b then
        min (max ((width - segmentsWidth textCells bar.center) / 2) (columns left + a))
          (width - columns right - b - segmentsWidth textCells bar.center)
      else columns left + a := ⟨_, rfl⟩
  have hstartle : columns left + a ≤ start := by
    rw [hstart]
    split_ifs
    · exact le_min (le_max_right _ _) (by clear hstart; omega)
    · exact le_rfl
  have hroom : width - columns left - columns right = width - (columns left + columns right) := by
    omega
  obtain ⟨center, gap, gap', hcenterok, hcentershows, htotal, hcenteryields, hplaced, hcenterrow⟩ :=
    paintZone_between (left.flatMap Glyph.cells) (right.flatMap Glyph.cells) bar.bg
      (width - columns left - columns right) start (width - columns right - b) laws hcenter
      (by omega) (by omega)
  have hrow : bar.renderRow textCells width =
      left.flatMap Glyph.cells ++ List.replicate gap (blankOf bar.bg) ++
        center.flatMap Glyph.cells ++ List.replicate gap' (blankOf bar.bg) ++
          right.flatMap Glyph.cells := by
    unfold renderRow
    dsimp only
    rw [hleftrow, hleftEnd, hrightrow, hafter, hbefore, ← hstart]
    exact hcenterrow
  refine ⟨?_, left, center, right, gap, gap', hrow, ?_, hleftshows, hcentershows, hrightshows,
    fun hne => ?_, hleftyields, hrightyields, fun hnot => ?_⟩
  · rw [hrow]
    simp only [length_append, length_replicate, hleftcells, length_cells hcenterok,
      length_cells hrightok]
    omega
  · intro g hg
    rcases mem_append.mp hg with hg | hg
    · rcases mem_append.mp hg with hg | hg
      · exact hleftok g hg
      · exact hcenterok g hg
    · exact hrightok g hg
  · obtain ⟨hfirst, hlast⟩ := hplaced hne
    rw [hleftcells] at hfirst hlast
    constructor
    · intro hnil
      rw [isEmpty_eq_false_iff.mpr hnil, if_neg Bool.false_ne_true] at ha
      omega
    · intro hnil
      rw [isEmpty_eq_false_iff.mpr hnil, if_neg Bool.false_ne_true] at hb
      have hpos := columns_pos hcenterok hne
      omega
  · have hyields := hcenteryields hnot
    have htrimmed := trimmedWidth_le hcenter
    rw [← ha, ← hb]
    by_cases hfits :
        columns left + a + segmentsWidth textCells bar.center ≤ width - columns right - b
    · have hlast : start ≤ _ := (hstart.trans (if_pos hfits)).trans_le (min_le_right _ _)
      clear hstart hafter hbefore ha hb
      omega
    · rw [if_neg hfits] at hstart
      clear hafter hbefore ha hb
      omega

/-- Text of which each scalar takes one column. -/
def plainCells (text : Str) : List (Str × Nat) := text.map fun c => ([c], 1)

theorem cellLaws_plainCells : CellLaws plainCells := by
  constructor
  · intro text cell hcell
    obtain ⟨c, -, rfl⟩ := mem_map.mp hcell
    exact cons_ne_nil _ _
  · intro text cell hcell
    obtain ⟨c, -, rfl⟩ := mem_map.mp hcell
    exact .inl rfl

/-- A bar whose right zone gives way to its left one. -/
def sampleBar : StatusBar where
  left := [.plain "abc".toList]
  center := [.plain "m".toList]
  right := [.plain "xyz".toList, .plain "  ".toList]
  bg := none

theorem renderRow_layout_sample : (sampleBar.renderRow plainCells 5).length = 5 ∧
    (sampleBar.renderRow plainCells 5).map RenderCell.ch = ['a', 'b', 'c', 'x', '…'] := by
  have hjoins := @joins_of_append plainCells fun a b => map_append
  exact ⟨(StatusBar.renderRow_layout cellLaws_plainCells sampleBar 5 (hjoins _) (hjoins _)
    (hjoins _)).1, by decide⟩

end Shux.Ui
