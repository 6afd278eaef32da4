/-
# Notices and the waiting count

Two writers change a bar that is otherwise finished. The count of waiting panes goes to the head of
the right zone, and only where every segment stays whole. For a notice in the centre segments are
cleared, innermost first and right before left, until it fits with a blank column beside each zone
that shows something.

A row holds every segment of a bar exactly when the zones fit with a blank column on either side of
a centre that shows something. How the virtual terminal stores a text is a parameter.
-/

import Shux.Ui.StatusBar

namespace Shux.Ui

open List

variable {cells : Str → List (Str × Nat)} {bar : StatusBar} {cols : Nat}

section

variable (cells)

/-- The segment that counts the panes blocked on the user. -/
def waitingSegment (waiting : Nat) (attention : Vt.Rgb) (nerdFonts : Bool) : StatusSegment where
  text := (if nerdFonts then '\uf071' else '◆') ::
    (' ' :: (toString waiting).toList ++ " waiting ".toList)
  fg := some (.rgb attention.r attention.g attention.b)
  bg := none
  bold := true

def appendWaiting (bar : StatusBar) (waiting : Nat) (attention : Vt.Rgb) (nerdFonts : Bool)
    (cols : Nat) : StatusBar :=
  if waiting = 0 then bar
  else
    let segment := waitingSegment waiting attention nerdFonts
    let width := StatusBar.segmentsWidth cells
    let gaps := if 0 < width bar.center then 2 else 1
    if width bar.left + width bar.center + width bar.right + gaps + width [segment] ≤ cols then
      { bar with right := segment :: bar.right }
    else bar

/-- Columns of a bar with one beside each zone that has something in it. -/
def StatusBar.spaced (bar : StatusBar) : Nat :=
  let width := StatusBar.segmentsWidth cells
  let gaps := (if 0 < width bar.left then 1 else 0) + if 0 < width bar.right then 1 else 0
  width bar.left + width bar.center + width bar.right + gaps

/-- One segment less: the first of the right zone, else the last of the left zone. -/
def StatusBar.clearOne (bar : StatusBar) : Option StatusBar :=
  match bar.right with
  | _ :: rest => some { bar with right := rest }
  | [] => if bar.left.isEmpty then none else some { bar with left := bar.left.dropLast }

/-- Segments, those that side zones have left to clear. -/
def StatusBar.sides (bar : StatusBar) : Nat := bar.left.length + bar.right.length

theorem StatusBar.clearOne_cases {less : StatusBar} (h : bar.clearOne = some less) :
    (∃ seg rest, bar.right = seg :: rest ∧ less = { bar with right := rest }) ∨
      bar.right = [] ∧ bar.left ≠ [] ∧ less = { bar with left := bar.left.dropLast } := by
  unfold clearOne at h
  cases hright : bar.right with
  | cons seg rest =>
    rw [hright, Option.some.injEq] at h
    exact .inl ⟨seg, rest, rfl, h.symm⟩
  | nil =>
    simp only [hright] at h
    by_cases hleft : bar.left.isEmpty = true
    · rw [if_pos hleft] at h
      cases h
    · rw [if_neg hleft, Option.some.injEq] at h
      exact .inr ⟨rfl, mt List.isEmpty_iff.mpr hleft, h.symm⟩

theorem StatusBar.clearOne_sides {less : StatusBar} (h : bar.clearOne = some less) :
    bar.sides = less.sides + 1 := by
  obtain ⟨seg, rest, hright, rfl⟩ | ⟨hright, hleft, rfl⟩ := clearOne_cases h
  · rw [sides, hright]
    rfl
  · have hpos := length_pos_of_ne_nil hleft
    rw [sides, sides, hright, length_dropLast, length_nil]
    omega

def makeRoomForNotice (bar : StatusBar) (cols : Nat) : StatusBar :=
  if cols < bar.spaced cells then
    match _h : bar.clearOne with
    | some less => makeRoomForNotice less cols
    | none => bar
  else bar
termination_by bar.sides
decreasing_by exact (StatusBar.clearOne_sides _h).symm ▸ Nat.lt_succ_self _

end

namespace StatusBar

/-- A bar without its first segments in the order in which they are cleared: the innermost ones of
the right zone, and the last ones of the left zone once that is empty. -/
def cleared (bar : StatusBar) (count : Nat) : StatusBar :=
  { bar with
    right := bar.right.drop count
    left := bar.left.take (bar.left.length - (count - bar.right.length)) }

theorem cleared_zero (bar : StatusBar) : bar.cleared 0 = bar := by
  unfold cleared
  rw [Nat.zero_sub, Nat.sub_zero, take_length, drop_zero]

theorem cleared_succ {less : StatusBar} (h : bar.clearOne = some less) (count : Nat) :
    bar.cleared (count + 1) = less.cleared count := by
  unfold cleared
  obtain ⟨seg, rest, hright, rfl⟩ | ⟨hright, hleft, rfl⟩ := clearOne_cases h
  · rw [hright, drop_succ_cons, length_cons, Nat.add_sub_add_right]
  · rw [hright, drop_nil, drop_nil, length_dropLast, dropLast_eq_take, take_take, length_nil]
    congr 2
    omega

/-- With both side zones empty nothing is left to clear. -/
theorem clearOne_eq_none (h : bar.clearOne = none) : bar.left = [] ∧ bar.right = [] := by
  unfold clearOne at h
  cases hright : bar.right with
  | cons seg rest =>
    rw [hright] at h
    cases h
  | nil =>
    simp only [hright] at h
    by_cases hleft : bar.left.isEmpty = true
    · exact ⟨List.isEmpty_iff.mp hleft, rfl⟩
    · rw [if_neg hleft] at h
      cases h

end StatusBar

/-- The loop clears segments in their order as long as the bar is too wide, and stops when it fits
or nothing is left. -/
theorem makeRoomForNotice_cleared (cells : Str → List (Str × Nat)) (bar : StatusBar) (cols : Nat) :
    ∃ count ≤ bar.sides, makeRoomForNotice cells bar cols = bar.cleared count ∧
      (∀ fewer < count, cols < (bar.cleared fewer).spaced cells) ∧
      ((bar.cleared count).spaced cells ≤ cols ∨
        (bar.cleared count).left = [] ∧ (bar.cleared count).right = []) := by
  induction bar using makeRoomForNotice.induct cells cols with
  | case1 bar hwide less hless ih =>
    obtain ⟨count, hle, hcount, hfewer, hstop⟩ := ih
    have hsides := StatusBar.clearOne_sides hless
    rw [makeRoomForNotice, if_pos hwide]
    refine ⟨count + 1, by omega, ?_, ?_, ?_⟩
    · rw [StatusBar.cleared_succ hless, ← hcount]
      split
      next less' hless' =>
        rw [hless, Option.some.injEq] at hless'
        rw [hless']
      next hnone =>
        rw [hless] at hnone
        cases hnone
    · intro fewer hlt
      cases fewer with
      | zero => exact bar.cleared_zero.symm ▸ hwide
      | succ fewer =>
        rw [StatusBar.cleared_succ hless]
        exact hfewer fewer (by omega)
    · rw [StatusBar.cleared_succ hless]
      exact hstop
  | case2 bar hwide hnone =>
    rw [makeRoomForNotice, if_pos hwide]
    refine ⟨0, Nat.zero_le _, ?_, fun _ hlt => absurd hlt (Nat.not_lt_zero _), ?_⟩
    · rw [StatusBar.cleared_zero]
      split
      next less hless =>
        rw [hnone] at hless
        cases hless
      next => rfl
    · rw [StatusBar.cleared_zero]
      exact .inr (StatusBar.clearOne_eq_none hnone)
  | case3 bar hfits =>
    rw [makeRoomForNotice, if_neg hfits]
    refine ⟨0, Nat.zero_le _, bar.cleared_zero.symm, fun _ hlt => absurd hlt (Nat.not_lt_zero _),
      .inl ?_⟩
    rw [StatusBar.cleared_zero]
    omega

section

variable (cells)

/-- Columns of a bar: a centre that shows something keeps one from each side zone that does. -/
def StatusBar.needed (bar : StatusBar) : Nat :=
  let width := StatusBar.segmentsWidth cells
  let gaps := if width bar.center = 0 then 0
    else (if 0 < width bar.left then 1 else 0) + if 0 < width bar.right then 1 else 0
  width bar.left + width bar.center + width bar.right + gaps

/-- A row shows every glyph of a bar, whole: the left zone from its start, the right one up to its
end, and the centre between them with a blank on either side. -/
def ShowsAll (bar : StatusBar) (row : List RenderCell) : Prop :=
  ∃ gap gap',
    row = (glyphsOf cells bar.left bar.bg).flatMap Glyph.cells ++
      List.replicate gap (blankOf bar.bg) ++
        (glyphsOf cells bar.center bar.bg).flatMap Glyph.cells ++
          List.replicate gap' (blankOf bar.bg) ++
            (glyphsOf cells bar.right bar.bg).flatMap Glyph.cells ∧
    (0 < StatusBar.segmentsWidth cells bar.center →
      (0 < StatusBar.segmentsWidth cells bar.left → 0 < gap) ∧
      (0 < StatusBar.segmentsWidth cells bar.right → 0 < gap'))

end

/-- No row of so many columns shows every segment of a bar. -/
def Overflows (cells : Str → List (Str × Nat)) (bar : StatusBar) (cols : Nat) : Prop :=
  ∀ row : List RenderCell, row.length = cols → ¬ShowsAll cells bar row

theorem CellLaws.length_cells (laws : CellLaws cells) (segs : List StatusSegment)
    (bg : Option CtColor) :
    ((glyphsOf cells segs bg).flatMap Glyph.cells).length = StatusBar.segmentsWidth cells segs := by
  rw [Ui.length_cells (laws.glyphs segs bg), columns_glyphs]

/-- A row that shows every segment has as many columns as they need. -/
theorem ShowsAll.needed_le (laws : CellLaws cells) {row : List RenderCell}
    (h : ShowsAll cells bar row) : bar.needed cells ≤ row.length := by
  obtain ⟨gap, gap', hrow, hgaps⟩ := h
  have hlength := congrArg List.length hrow
  simp only [length_append, length_replicate, laws.length_cells] at hlength
  unfold StatusBar.needed
  dsimp only
  split_ifs <;> omega

/-- A zone that fits is painted from its start on, whole. -/
theorem paintZone_fits (laws : CellLaws cells) (pre post : List RenderCell) (bg : Option CtColor)
    (segs : List StatusSegment) (stop : Nat) (flushEnd : Bool)
    (hfits : pre.length + StatusBar.segmentsWidth cells segs ≤ stop) :
    paintZone cells (pre ++ List.replicate (stop - pre.length) (blankOf bg) ++ post) pre.length stop
        segs bg flushEnd =
      (pre ++ (glyphsOf cells segs bg).flatMap Glyph.cells ++
          List.replicate (stop - (pre.length + StatusBar.segmentsWidth cells segs)) (blankOf bg) ++
            post,
        if StatusBar.segmentsWidth cells segs = 0 then none
        else some (pre.length, pre.length + StatusBar.segmentsWidth cells segs)) := by
  unfold paintZone zoneLimit
  dsimp only
  by_cases hzero : StatusBar.segmentsWidth cells segs = 0
  · have hnil : (glyphsOf cells segs bg).flatMap Glyph.cells = [] := by
      rw [← length_eq_zero_iff, laws.length_cells, hzero]
    rw [if_pos hzero, if_pos hzero, hnil, hzero, append_nil, Nat.add_zero]
  · obtain ⟨p, hpaint, hpainted⟩ := paint_whole pre post bg stop (laws.glyphs segs bg)
      ⟨none, none, .default⟩ (by rw [columns_glyphs]; exact hfits)
    have hcursor := hpainted.cursor
    rw [columns_glyphs] at hcursor
    rw [if_neg hzero, if_neg hzero, if_pos (by omega)]
    dsimp only
    rw [hpaint, ← hcursor]
    exact Prod.ext hpainted.row rfl

/-- Nothing is painted of a zone that takes no column. -/
theorem paintZone_empty {segs : List StatusSegment}
    (hzero : StatusBar.segmentsWidth cells segs = 0) (row : List RenderCell) (start stop : Nat)
    (bg : Option CtColor) (flushEnd : Bool) :
    paintZone cells row start stop segs bg flushEnd = (row, none) := by
  unfold paintZone zoneLimit
  dsimp only
  rw [if_pos hzero]

namespace StatusBar

/-- Zones that need no more columns than there are are all shown whole. -/
theorem renderRow_showsAll (laws : CellLaws cells) (h : bar.needed cells ≤ cols) :
    ShowsAll cells bar (bar.renderRow cells cols) := by
  obtain ⟨lw, hlw⟩ : ∃ n, segmentsWidth cells bar.left = n := ⟨_, rfl⟩
  obtain ⟨cw, hcw⟩ : ∃ n, segmentsWidth cells bar.center = n := ⟨_, rfl⟩
  obtain ⟨rw', hrw⟩ : ∃ n, segmentsWidth cells bar.right = n := ⟨_, rfl⟩
  obtain ⟨a, ha⟩ : ∃ a, a = if 0 < lw then 1 else 0 := ⟨_, rfl⟩
  obtain ⟨b, hb⟩ : ∃ b, b = if 0 < rw' then 1 else 0 := ⟨_, rfl⟩
  have hneeded : lw + cw + rw' + (if cw = 0 then 0 else a + b) ≤ cols := by
    rw [ha, hb, ← hlw, ← hcw, ← hrw]
    exact h
  have hsides : lw + cw + rw' ≤ cols := (Nat.le_add_right _ _).trans hneeded
  obtain ⟨L, hL⟩ : ∃ L, (glyphsOf cells bar.left bar.bg).flatMap Glyph.cells = L := ⟨_, rfl⟩
  obtain ⟨C, hC⟩ : ∃ C, (glyphsOf cells bar.center bar.bg).flatMap Glyph.cells = C := ⟨_, rfl⟩
  obtain ⟨R, hR⟩ : ∃ R, (glyphsOf cells bar.right bar.bg).flatMap Glyph.cells = R := ⟨_, rfl⟩
  have hLlen : L.length = lw := by rw [← hL, laws.length_cells, hlw]
  have hClen : C.length = cw := by rw [← hC, laws.length_cells, hcw]
  have blanks (m n : Nat) : List.replicate m (blankOf bar.bg) ++
      List.replicate n (blankOf bar.bg) = List.replicate (m + n) (blankOf bar.bg) :=
    (replicate_add ..).symm
  -- the left zone
  have hleft := paintZone_fits laws [] [] bar.bg bar.left cols false
    (by rw [length_nil, hlw]; omega)
  rw [hlw, hL] at hleft
  simp only [length_nil, nil_append, append_nil, Nat.sub_zero, Nat.zero_add] at hleft
  have hleftEnd : ((if lw = 0 then none else some (0, lw)).map Prod.snd).getD 0 = lw := by
    split_ifs with hzero
    · exact hzero.symm
    · rfl
  -- the right zone, behind the blanks that are left between the two
  have hpre : (L ++ List.replicate (cols - rw' - lw) (blankOf bar.bg)).length = cols - rw' := by
    rw [length_append, length_replicate, hLlen]
    omega
  have hright := paintZone_fits laws (L ++ List.replicate (cols - rw' - lw) (blankOf bar.bg)) []
    bar.bg bar.right cols true (by rw [hpre, hrw]; omega)
  rw [hpre, hrw, hR, append_assoc L, blanks, append_nil, append_nil,
    show cols - rw' - lw + (cols - (cols - rw')) = cols - lw by omega,
    show cols - (cols - rw' + rw') = 0 by omega, replicate_zero, append_nil] at hright
  have hmax : max (cols - rw') lw = cols - rw' := max_eq_left (by omega)
  have hafter : lw + (if 0 < lw then 1 else 0) = lw + a := by rw [ha]
  have hbefore : ((Option.map Prod.fst (if rw' = 0 then none
      else some (cols - rw', cols - rw' + rw'))).map fun s => s - 1).getD cols =
        cols - rw' - b := by
    rw [hb]
    by_cases hzero : rw' = 0
    · rw [if_pos hzero, hzero]
      rfl
    · rw [if_neg hzero, if_pos (by omega)]
      rfl
  unfold ShowsAll renderRow
  dsimp only
  rw [hleft, hlw, hrw, hcw]
  dsimp only
  rw [hleftEnd, hmax, hright]
  dsimp only
  rw [hafter, hbefore, hL, hC, hR]
  rcases Nat.eq_zero_or_pos cw with hzero | hpos
  · -- nothing in the centre
    refine ⟨cols - rw' - lw, 0, ?_, fun hpos => absurd hzero hpos.ne'⟩
    rw [paintZone_empty (hcw.trans hzero), length_eq_zero_iff.mp (hClen.trans hzero),
      replicate_zero, append_nil, append_nil]
  · rw [if_neg hpos.ne'] at hneeded
    clear hmax hafter hbefore
    rw [if_pos (by omega)]
    obtain ⟨start, hstart⟩ : ∃ start,
      start = min (max ((cols - cw) / 2) (lw + a)) (cols - rw' - b - cw) := ⟨_, rfl⟩
    rw [← hstart]
    have hlo : lw + a ≤ start := hstart ▸ le_min (le_max_right _ _) (by clear hstart; omega)
    have hhi : start ≤ _ := hstart.trans_le (min_le_right _ _)
    clear hstart
    have hpre' : (L ++ List.replicate (start - lw) (blankOf bar.bg)).length = start := by
      rw [length_append, length_replicate, hLlen]
      omega
    have hcenter := paintZone_fits laws (L ++ List.replicate (start - lw) (blankOf bar.bg))
      (List.replicate b (blankOf bar.bg) ++ R) bar.bg bar.center (cols - rw' - b) false
      (by rw [hpre', hcw]; omega)
    have hrow : L ++ List.replicate (start - lw) (blankOf bar.bg) ++
        List.replicate (cols - rw' - b - start) (blankOf bar.bg) ++
          (List.replicate b (blankOf bar.bg) ++ R) =
        L ++ List.replicate (cols - rw' - lw) (blankOf bar.bg) ++ R := by
      rw [← append_assoc, append_assoc L, blanks, append_assoc L, blanks]
      congr 3
      omega
    rw [hpre', hrow, hcw, hC] at hcenter
    rw [hcenter]
    refine ⟨start - lw, cols - rw' - b - (start + cw) + b, ?_,
      fun _ => ⟨fun hl => ?_, fun hr => ?_⟩⟩
    · rw [← blanks]
      simp only [append_assoc]
    · rw [if_pos hl] at ha
      clear hb
      omega
    · rw [if_pos hr] at hb
      omega

theorem needed_le_spaced (cells : Str → List (Str × Nat)) (bar : StatusBar) :
    bar.needed cells ≤ bar.spaced cells := by
  unfold needed spaced
  dsimp only
  split_ifs <;> omega

/-- With something in the centre the columns a bar needs are those it is budgeted with. -/
theorem needed_eq_spaced (h : 0 < segmentsWidth cells bar.center) :
    bar.needed cells = bar.spaced cells := by
  unfold needed spaced
  dsimp only
  rw [if_neg h.ne']

end StatusBar

/-- A segment that is inserted is shown whole, and so is every other one. -/
theorem appendWaiting_showsAll (laws : CellLaws cells) (bar : StatusBar) (waiting : Nat)
    (attention : Vt.Rgb) (nerdFonts : Bool) (cols : Nat) :
    appendWaiting cells bar waiting attention nerdFonts cols = bar ∨
      appendWaiting cells bar waiting attention nerdFonts cols =
          { bar with right := waitingSegment waiting attention nerdFonts :: bar.right } ∧
        ShowsAll cells (appendWaiting cells bar waiting attention nerdFonts cols)
          ((appendWaiting cells bar waiting attention nerdFonts cols).renderRow cells cols) := by
  unfold appendWaiting
  dsimp only
  by_cases hzero : waiting = 0
  · rw [if_pos hzero]
    exact .inl rfl
  rw [if_neg hzero]
  by_cases hfits : StatusBar.segmentsWidth cells bar.left +
      StatusBar.segmentsWidth cells bar.center + StatusBar.segmentsWidth cells bar.right +
        (if 0 < StatusBar.segmentsWidth cells bar.center then 2 else 1) +
          StatusBar.segmentsWidth cells [waitingSegment waiting attention nerdFonts] ≤ cols
  · rw [if_pos hfits]
    refine .inr ⟨rfl, StatusBar.renderRow_showsAll laws ?_⟩
    have hright : StatusBar.segmentsWidth cells
        (waitingSegment waiting attention nerdFonts :: bar.right) =
          StatusBar.segmentsWidth cells [waitingSegment waiting attention nerdFonts] +
            StatusBar.segmentsWidth cells bar.right := by
      unfold StatusBar.segmentsWidth
      rw [flatMap_cons, map_append, sum_append, flatMap_singleton]
    unfold StatusBar.needed
    dsimp only
    rw [hright]
    split_ifs at hfits ⊢ <;> omega
  · rw [if_neg hfits]
    exact .inl rfl

/-- Once the loop is done a centre that fits by itself is shown whole, with what is left of the
other zones. -/
theorem cleared_showsAll (laws : CellLaws cells) {count : Nat}
    (hstop : (bar.cleared count).spaced cells ≤ cols ∨
      (bar.cleared count).left = [] ∧ (bar.cleared count).right = [])
    (hcenter : StatusBar.segmentsWidth cells bar.center ≤ cols) :
    ShowsAll cells (bar.cleared count) ((bar.cleared count).renderRow cells cols) := by
  refine StatusBar.renderRow_showsAll laws ?_
  rcases hstop with hfits | ⟨hleft, hright⟩
  · exact ((bar.cleared count).needed_le_spaced cells).trans hfits
  · have hsame : (bar.cleared count).center = bar.center := rfl
    have hnil : StatusBar.segmentsWidth cells [] = 0 := rfl
    unfold StatusBar.needed
    dsimp only
    rw [hleft, hright, hnil, hsame, if_neg (lt_irrefl 0)]
    split_ifs <;> omega

section

variable (store : Str → List Vt.Cell)

/-- The cells of a text, as a terminal keeps it in a row. -/
def textCells (text : Str) : List (Str × Nat) :=
  ((store (text.filter fun c => !isControl c)).filter fun cell => 0 < cell.width).map fun cell =>
    (cell.displayText, min cell.width 2)

theorem cellLaws_textCells (hstore : ∀ text, ∀ cell ∈ store text, cell.grapheme ≠ some []) :
    CellLaws (textCells store) := by
  constructor
  · intro text cell hcell
    obtain ⟨kept, hkept, rfl⟩ := mem_map.mp hcell
    have hne := hstore _ kept (mem_of_mem_filter hkept)
    unfold Vt.Cell.displayText
    dsimp only
    cases hgrapheme : kept.grapheme with
    | none => exact cons_ne_nil _ _
    | some text => exact fun hnil => hne (hgrapheme.trans (congrArg some hnil))
  · intro text cell hcell
    obtain ⟨kept, hkept, rfl⟩ := mem_map.mp hcell
    have hpos := of_decide_eq_true (mem_filter.mp hkept).2
    dsimp only
    omega

/-- The waiting count is inserted only where every segment stays whole. A notice that fits by
itself is shown whole; what is cleared for it are the first of the right zone and, once that is
empty, the last of the left zone, and with fewer cleared the bar is too wide for the row with a
blank column beside each zone, so that with something in the centre it does not show. -/
theorem StatusBar.notices_showsAll (hstore : ∀ text, ∀ cell ∈ store text, cell.grapheme ≠ some [])
    (bar : StatusBar) (cols : Nat) :
    (∀ waiting attention nerdFonts,
      appendWaiting (textCells store) bar waiting attention nerdFonts cols = bar ∨
        appendWaiting (textCells store) bar waiting attention nerdFonts cols =
            { bar with right := waitingSegment waiting attention nerdFonts :: bar.right } ∧
          ShowsAll (textCells store)
            (appendWaiting (textCells store) bar waiting attention nerdFonts cols)
            ((appendWaiting (textCells store) bar waiting attention nerdFonts cols).renderRow
              (textCells store) cols)) ∧
    ∃ count ≤ bar.sides, makeRoomForNotice (textCells store) bar cols = bar.cleared count ∧
      (segmentsWidth (textCells store) bar.center ≤ cols →
        ShowsAll (textCells store) (bar.cleared count)
          ((bar.cleared count).renderRow (textCells store) cols)) ∧
      ∀ fewer < count, cols < (bar.cleared fewer).spaced (textCells store) ∧
        (0 < segmentsWidth (textCells store) bar.center →
          Overflows (textCells store) (bar.cleared fewer) cols) := by
  have laws := cellLaws_textCells store hstore
  obtain ⟨count, hle, hcount, hfewer, hstop⟩ := makeRoomForNotice_cleared (textCells store) bar cols
  refine ⟨fun _ _ _ => appendWaiting_showsAll laws ..,
    count, hle, hcount, cleared_showsAll laws hstop, fun fewer hlt => ⟨hfewer fewer hlt, ?_⟩⟩
  intro hpos row hrow hshows
  have hneeded := hshows.needed_le laws
  have hsame : (bar.cleared fewer).needed (textCells store) = _ := needed_eq_spaced hpos
  rw [hsame, hrow] at hneeded
  exact absurd hneeded (Nat.not_le.mpr (hfewer fewer hlt))

end

/-- A terminal that keeps each scalar in a cell of its own. -/
def plainStore (text : Str) : List Vt.Cell := text.map fun ch => { Vt.Cell.empty with ch }

theorem grapheme_plainStore : ∀ text, ∀ cell ∈ plainStore text, cell.grapheme ≠ some [] := by
  intro text cell hcell
  obtain ⟨ch, -, rfl⟩ := mem_map.mp hcell
  exact nofun

/-- The bar with two panes waiting. -/
def waitingBar : StatusBar :=
  { sampleBar with right := waitingSegment 2 ⟨255, 0, 0⟩ false :: sampleBar.right }

/-- A row of 40 columns has room for the segment, and one of five clears a notice's way. -/
theorem notices_showsAll_sample :
    (appendWaiting (textCells plainStore) sampleBar 2 ⟨255, 0, 0⟩ false 40 = waitingBar ∧
      ShowsAll (textCells plainStore) waitingBar
        (waitingBar.renderRow (textCells plainStore) 40)) ∧
    ∃ count ≤ sampleBar.sides,
      makeRoomForNotice (textCells plainStore) sampleBar 5 = sampleBar.cleared count ∧
        ShowsAll (textCells plainStore) (sampleBar.cleared count)
          ((sampleBar.cleared count).renderRow (textCells plainStore) 5) := by
  have hwaiting := (StatusBar.notices_showsAll plainStore grapheme_plainStore sampleBar 40).1
  obtain ⟨count, hle, hcount, hcenter, -⟩ :=
    (StatusBar.notices_showsAll plainStore grapheme_plainStore sampleBar 5).2
  refine ⟨?_, count, hle, hcount, hcenter (by decide)⟩
  obtain hsame | ⟨heq, hshows⟩ := hwaiting 2 ⟨255, 0, 0⟩ false
  · have hright := congrArg (fun bar => bar.right.length) hsame
    exact absurd hright (by decide)
  · rw [heq] at hshows
    exact ⟨heq, hshows⟩

/-- Two zones that touch, with nothing between them. -/
def touchingBar : StatusBar := ⟨[.plain "ab".toList], [], [.plain "cd".toList], none⟩

/-- With nothing in the centre a segment is cleared from a row that holds it. -/
theorem makeRoomForNotice_touching :
    ¬∀ (bar : StatusBar) (cols : Nat), ∃ count,
      makeRoomForNotice (textCells plainStore) bar cols = bar.cleared count ∧
        ∀ fewer < count, Overflows (textCells plainStore) (bar.cleared fewer) cols := by
  intro hclaim
  obtain ⟨count, hcount, hfewer⟩ := hclaim touchingBar 5
  have hless : makeRoomForNotice (textCells plainStore) touchingBar 5 = touchingBar.cleared 1 := by
    rw [makeRoomForNotice, if_pos (by decide)]
    show makeRoomForNotice (textCells plainStore) (touchingBar.cleared 1) 5 = _
    rw [makeRoomForNotice, if_neg (by decide)]
  cases count with
  | zero =>
    have hright := congrArg (fun bar => bar.right.length) (hless.symm.trans hcount)
    exact absurd hright (by decide)
  | succ count =>
    have laws := cellLaws_textCells plainStore grapheme_plainStore
    exact hfewer 0 (Nat.succ_pos count) (touchingBar.renderRow (textCells plainStore) 5)
      (by decide) (StatusBar.renderRow_showsAll laws (by decide))

end Shux.Ui
