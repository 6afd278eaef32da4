/-
# Styles of a decoded row

A column is shown in the style of its cell, and the second column of a wide glyph, which has no
style of its own, in the style of the glyph. A run that passes then shows its own style in every
column it takes, and nothing else changes.

A run of an array may have more entries than a row can have columns, because its width is counted
in sixteen bits. Decoding cuts it off at the edge.
-/

import Shux.Vt.CaptureFrame

namespace Shux.Vt

open List

variable {cells glyphs : List Cell} {c : Nat}

/-- The style a column is shown in. -/
def shownStyle (cells : List Cell) (c : Nat) : CapStyle :=
  if (cells.getD c .empty).isWideContinuation then .fromCell (cells.getD (c - 1) .empty)
  else .fromCell (cells.getD c .empty)

/-- The style of a cell of a frame. -/
def FrameEnvelope.styleAt (env : FrameEnvelope) (r c : Nat) : CapStyle :=
  shownStyle (env.toCells.getD r []) c

theorem shownStyle_congr {cells' : List Cell} (hself : cells[c]? = cells'[c]?)
    (hbefore : cells[c - 1]? = cells'[c - 1]?) : shownStyle cells c = shownStyle cells' c := by
  unfold shownStyle
  simp only [getD_eq_getElem?_getD, hself, hbefore]

theorem shownStyle_blank (h : cells[c]? = some .empty) : shownStyle cells c = .default := by
  unfold shownStyle
  rw [getD_eq_getElem?_getD, h]
  rfl

/-- A column of glyphs of one style is the glyph itself or follows it. -/
theorem expand_getElem? {style : CapStyle} (h : Glyphs style glyphs) {i : Nat}
    (hi : i < (expand glyphs).length) :
    (∃ cell, (expand glyphs)[i]? = some cell ∧ cell.isWideContinuation = false ∧
        CapStyle.fromCell cell = style) ∨
      (∃ cell, (expand glyphs)[i]? = some .wideContinuation ∧ 0 < i ∧
        (expand glyphs)[i - 1]? = some cell ∧ CapStyle.fromCell cell = style) := by
  induction glyphs generalizing i with
  | nil => cases hi
  | cons glyph glyphs ih =>
    have hrest := h.tail
    have hself := mem_cons_self (a := glyph) (l := glyphs)
    have hstyle := h.style glyph hself
    rcases h.glyph glyph hself with hone | htwo
    · rw [expand_cons, columns_narrow hone] at hi ⊢
      cases i with
      | zero =>
        refine .inl ⟨glyph, rfl, ?_, hstyle⟩
        rw [Cell.isWideContinuation, hone]
        rfl
      | succ i =>
        have hlen : i < (expand glyphs).length := by simpa using hi
        rcases ih hrest hlen with ⟨cell, hat, hcell⟩ | ⟨cell, hat, hpos, hbefore, hcell⟩
        · exact .inl ⟨cell, hat, hcell⟩
        · refine .inr ⟨cell, hat, Nat.succ_pos i, ?_, hcell⟩
          rw [Nat.add_sub_cancel, ← Nat.succ_pred_eq_of_pos hpos]
          exact hbefore
    · rw [expand_cons, columns_wide htwo] at hi ⊢
      cases i with
      | zero =>
        refine .inl ⟨glyph, rfl, ?_, hstyle⟩
        rw [Cell.isWideContinuation, htwo]
        rfl
      | succ i =>
        cases i with
        | zero => exact .inr ⟨glyph, rfl, Nat.one_pos, rfl, hstyle⟩
        | succ i =>
          have hlen : i < (expand glyphs).length := by simpa using hi
          rcases ih hrest hlen with ⟨cell, hat, hcell⟩ | ⟨cell, hat, hpos, hbefore, hcell⟩
          · exact .inl ⟨cell, hat, hcell⟩
          · refine .inr ⟨cell, hat, Nat.succ_pos _, ?_, hcell⟩
            obtain ⟨j, rfl⟩ := Nat.exists_eq_succ_of_ne_zero hpos.ne'
            exact hbefore

/-- Where glyphs of one style are drawn, their style is shown. -/
theorem shownStyle_drawn {style : CapStyle} (h : Glyphs style glyphs)
    {col : Nat} (hge : col ≤ c) (hlt : c < col + (expand glyphs).length)
    (hdrawn : ∀ i, col ≤ i → i ≤ c → cells[i]? = (expand glyphs)[i - col]?) :
    shownStyle cells c = style := by
  unfold shownStyle
  simp only [getD_eq_getElem?_getD]
  rw [hdrawn c hge le_rfl]
  rcases expand_getElem? h (i := c - col) (by omega) with
    ⟨cell, hat, hhead, hstyle⟩ | ⟨cell, hat, hpos, hbefore, hstyle⟩
  · rw [hat, Option.getD_some, hhead]
    exact hstyle
  · rw [hat, hdrawn (c - 1) (by omega) (by omega), show c - 1 - col = c - col - 1 by omega, hbefore]
    exact hstyle

variable {cols : Nat} {style : CapStyle}

theorem decodeComplex_past {entries : List (List Char)} (hc : cols ≤ c)
    (cells : List Cell) : decodeComplex style cols entries c cells = cells := by
  match entries with
  | [] => rw [decodeComplex]
  | [entry] => rw [decodeComplex, if_pos hc]
  | entry :: next :: rest => rw [decodeComplex, if_pos hc]

/-- Entries that reach the edge fill the row, and the rest of them is left out. -/
theorem decodeComplex_cut (h : Glyphs style glyphs) (hcells : cells.length = cols) (hc : c ≤ cols)
    (hreach : cols ≤ c + (expand glyphs).length) :
    decodeComplex style cols (glyphs.flatMap Cell.entries) c cells =
      cells.take c ++ (expand glyphs).take (cols - c) := by
  induction glyphs generalizing c cells with
  | nil =>
    have hfull : c = cols := le_antisymm hc hreach
    rw [flatMap_nil, decodeComplex, hfull, Nat.sub_self, take_zero, append_nil,
      ← hcells, take_length]
  | cons glyph glyphs ih =>
    rcases hc.lt_or_eq with hc | rfl
    · have hrest := h.tail
      have hself := mem_cons_self (a := glyph) (l := glyphs)
      have hcell := entryCell_displayText (h.kept glyph hself)
      have hentry := isEmpty_displayText (h.kept glyph hself)
      have hset : (cells.set c glyph).take (c + 1) = cells.take c ++ [glyph] := by
        rw [take_succ_eq_append_getElem (by rw [length_set]; omega),
          take_set_of_le le_rfl, getElem_set_self]
      rw [h.style glyph hself] at hcell
      rw [flatMap_cons, expand_cons]
      rw [expand_cons, length_append] at hreach
      rcases h.glyph glyph hself with hone | htwo
      · rw [columns_narrow hone] at hreach ⊢
        rw [hone] at hcell
        rw [show glyph.entries = [glyph.displayText] by simp [Cell.entries, Cell.isWide, hone],
          singleton_append, decodeComplex_narrow hc hentry (startsGlyph_entries hrest.kept),
          hcell, ih hrest (by rw [length_set, hcells]) hc
            (by rw [length_singleton] at hreach; omega), hset,
          show cols - c = cols - (c + 1) + 1 by omega, singleton_append, take_succ_cons,
          append_assoc, singleton_append]
      · rw [columns_wide htwo] at hreach ⊢
        rw [htwo] at hcell
        rw [show glyph.entries = [glyph.displayText, []] by
          simp [Cell.entries, Cell.isWide, htwo], cons_append, singleton_append]
        rcases Nat.lt_or_ge (c + 1) cols with hnext | hedge
        · have hwidth : [glyph, Cell.wideContinuation].length = 2 := rfl
          rw [hwidth] at hreach
          have hset2 : ((cells.set c glyph).set (c + 1) .wideContinuation).take (c + 1 + 1) =
              cells.take c ++ [glyph, .wideContinuation] := by
            rw [take_succ_eq_append_getElem
                (by rw [length_set, length_set]; omega),
              take_set_of_le le_rfl, getElem_set_self, hset, append_assoc]
            rfl
          rw [decodeComplex_wide hnext hentry, hcell,
            ih hrest (by rw [length_set, length_set, hcells]) hnext (by omega), hset2,
            show cols - c = cols - (c + 1 + 1) + 1 + 1 by omega, cons_append,
            singleton_append, take_succ_cons, take_succ_cons, append_assoc,
            cons_append, singleton_append]
        · -- the second half of the glyph lies past the edge
          have hfull : c + 1 = cols := by omega
          rw [decodeComplex, if_neg (by omega), hentry]
          dsimp only [isEmpty_nil]
          rw [if_neg Bool.false_ne_true, if_pos rfl, if_neg (by omega),
            decodeComplex_past (by omega), hcell, ← hfull, Nat.add_sub_cancel_left,
            cons_append, take_succ_cons, take_zero, ← hset,
            take_of_length_le (by rw [length_set]; omega)]
    · rw [decodeComplex_past le_rfl, Nat.sub_self, take_zero, append_nil, ← hcells, take_length]

end Shux.Vt
