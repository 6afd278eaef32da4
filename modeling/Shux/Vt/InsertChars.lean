/-
# Inserting characters

Blank cells go in at a column and what stood there moves right. The row first blanks the wide
character that has a half at the column, so that none is cut, and repairs itself afterwards where
the right edge cut one. A wide character whose first half is at the column is not cut by it, and
would move like every other; blanking takes it away all the same.
-/

import Shux.Vt.Evolve

namespace Shux.Vt

open Checked

namespace Row

variable {cols col : Nat} {row : Row} {cells cells' : List Cell} {bg : Color}

/-- A row some cells of which were reset, all others being as they were. -/
structure Touches (bg : Color) (cells cells' : List Cell) : Prop where
  length : cells'.length = cells.length
  cell : ∀ i : Nat, cells'[i]? = cells[i]? ∨ ∃ cell : Cell, cells'[i]? = some (cell.reset bg)

theorem Touches.refl (bg : Color) (cells : List Cell) : Touches bg cells cells :=
  ⟨rfl, fun _ => .inl rfl⟩

theorem Touches.set (h : Touches bg cells cells') (i : Nat) (cell : Cell) :
    Touches bg cells (cells'.set i (cell.reset bg)) where
  length := List.length_set.trans h.length
  cell j := by
    by_cases hj : i = j ∧ i < cells'.length
    · obtain ⟨rfl, hi⟩ := hj
      exact .inr ⟨cell, List.getElem?_set_self hi⟩
    · have hsame : (cells'.set i (cell.reset bg))[j]? = cells'[j]? := by
        by_cases hij : i = j
        · rw [List.set_eq_of_length_le (by omega)]
        · exact List.getElem?_set_ne hij
      rw [hsame]
      exact h.cell j

theorem Touches.resetWhen (h : Touches bg cells cells') (hcol : col < cells'.length)
    (kind : Cell → Bool) : Runs (resetWhen cells' col kind bg) (Touches bg cells) := by
  apply (runs_resetWhen hcol kind bg).mono
  rintro _ ⟨cell, -, rfl⟩
  split
  · exact h.set col cell
  · exact h

theorem touches_clearWidePairAround (row : Row) (col : Nat) (bg : Color) :
    Runs (row.clearWidePairAround col bg) fun row' => Touches bg row.cells row'.cells := by
  unfold clearWidePairAround
  apply Runs.ite
  · exact fun _ => .pure (.refl bg _)
  intro hcol
  rw [not_le] at hcol
  apply Runs.bind (.index hcol)
  intro cell _
  apply Runs.ite
  · intro _
    apply Runs.bind (.assign hcol)
    rintro _ rfl
    have hset : Touches bg row.cells (row.cells.set col (cell.reset bg)) :=
      (Touches.refl bg _).set col cell
    apply Runs.ite
    · intro hpos
      apply Runs.bind (.sub hpos)
      rintro _ rfl
      apply Runs.bind (hset.resetWhen (by rw [List.length_set]; omega) _)
      exact fun _ h => .pure h
    · exact fun _ => .pure hset
  · intro _
    apply Runs.ite
    · intro _
      apply Runs.bind (.assign hcol)
      rintro _ rfl
      have hset : Touches bg row.cells (row.cells.set col (cell.reset bg)) :=
        (Touches.refl bg _).set col cell
      apply Runs.ite
      · intro hnext
        apply Runs.bind (hset.resetWhen hnext _)
        exact fun _ h => .pure h
      · exact fun _ => .pure hset
    · exact fun _ => .pure (.refl bg _)

theorem touches_sanitizeWidePairs (hreg : Regular row.cells) (bg : Color) :
    Runs (row.sanitizeWidePairs bg) fun row' => Touches bg row.cells row'.cells := by
  have hloop : Runs (each (span 0 row.cells.length) row.cells (sanitizeCell bg))
      fun cells => Regular cells ∧ Touches bg row.cells cells := by
    apply Runs.each fun cells => Regular cells ∧ Touches bg row.cells cells
    · exact ⟨hreg, .refl bg _⟩
    · rintro i hi cells ⟨hregular, htouches⟩
      rw [mem_span] at hi
      apply (runs_sanitizeCell hregular (by rw [htouches.length]; omega) bg).mono
      rintro _ (⟨-, rfl⟩ | ⟨-, cell, rfl⟩)
      · exact ⟨hregular, htouches⟩
      · exact ⟨hregular.set (regular_reset cell bg) i, htouches.set i cell⟩
  exact .bind hloop fun cells h => .pure h.2

/-- A cell that was reset to the default is empty. -/
theorem Touches.eq_empty (h : Touches .default cells cells') {i : Nat}
    (hne : widthAt cells' i ≠ widthAt cells i) : cells'[i]? = some .empty := by
  obtain hsame | ⟨cell, hreset⟩ := h.cell i
  · exact absurd (widthAt_congr hsame) hne
  · exact hreset

/-- The copying from the end moves every cell from `col` on. -/
theorem runs_shiftRight_at (cells : List Cell) (hcol : col ≤ cells.length) (count : Nat) :
    Runs (shiftRight cells col count) fun cells' => cells'.length = cells.length ∧
      ∀ j : Nat, cells'[j]? =
        if col + count ≤ j ∧ j < cells.length then cells[j - count]? else cells[j]? := by
  apply Runs.eachSpanReverse (fun k (cells' : List Cell) => cells'.length = cells.length ∧
    ∀ j : Nat, cells'[j]? =
      if k + count ≤ j ∧ j < cells.length then cells[j - count]? else cells[j]?)
    hcol
  · exact ⟨rfl, fun j => by rw [if_neg (by omega)]⟩
  · rintro i - hi cells' ⟨hlen, hat⟩
    apply Runs.ite
    · intro htarget
      apply Runs.bind (.index (by omega))
      intro cell hcell
      rw [hat, if_neg (by omega)] at hcell
      apply (Runs.assign htarget).mono
      rintro _ rfl
      refine ⟨List.length_set.trans hlen, fun j => ?_⟩
      by_cases hj : j = i + count
      · subst hj
        rw [List.getElem?_set_self htarget, if_pos ⟨le_rfl, by omega⟩, Nat.add_sub_cancel, hcell]
      · rw [List.getElem?_set_ne (Ne.symm hj), hat]
        congr 1
        rw [eq_iff_iff]
        omega
    · intro hout
      refine .pure ⟨hlen, fun j => ?_⟩
      rw [hat]
      congr 1
      rw [eq_iff_iff]
      omega

theorem getElem?_blankRange (cells : List Cell) (start stop i : Nat) :
    (blankRange cells start stop)[i]? =
      if start ≤ i ∧ i < stop then cells[i]?.map fun _ => .empty else cells[i]? := by
  rw [blankRange, List.getElem?_mapIdx]
  cases cells[i]? with
  | none => simp
  | some cell =>
    rw [Option.map_some, Option.map_some]
    split <;> rfl

/-- What stands in a column after an insertion into a row whose cut character is blanked: the
cells before `col`, the blanks, and the cells `n` columns further left, of which a wide one in the
last column is cut and blank. -/
def insertedAt (cleared : List Cell) (col n j : Nat) : Option Cell :=
  if cleared.length ≤ j then none
  else if j < col then cleared[j]?
  else if j < col + n then some .empty
  else if j + 1 = cleared.length ∧ widthAt cleared (j - n) = 2 then some .empty
  else cleared[j - n]?

/-- Every column of a row whose cells from `col` on were moved and that was not repaired yet. -/
def Shifted (cleared shifted : List Cell) (col n : Nat) : Prop :=
  ∀ j, shifted[j]? = if cleared.length ≤ j then none else if j < col then cleared[j]?
    else if j < col + n then some .empty else cleared[j - n]?

theorem shifted_blankRange {cleared cells : List Cell} {col n : Nat}
    (hat : ∀ j : Nat, cells[j]? =
      if col + n ≤ j ∧ j < cleared.length then cleared[j - n]? else cleared[j]?) :
    Shifted cleared (blankRange cells col (min (col + n) cleared.length)) col n := by
  intro j
  rw [getElem?_blankRange, hat]
  by_cases hj : cleared.length ≤ j
  · rw [if_pos hj, if_neg (by omega), if_neg (by omega), List.getElem?_eq_none (by omega)]
  · rw [if_neg hj]
    by_cases hleft : j < col
    · rw [if_pos hleft, if_neg (by omega), if_neg (by omega)]
    · rw [if_neg hleft]
      by_cases hblank : j < col + n
      · rw [if_pos hblank, if_pos (by omega), if_neg (by omega),
          List.getElem?_eq_getElem (by omega), Option.map_some]
      · rw [if_neg hblank, if_neg (by omega), if_pos (by omega)]

namespace Shifted

variable {cleared shifted : List Cell} {col n : Nat}

theorem widthAt (h : Shifted cleared shifted col n) (j : Nat) :
    Row.widthAt shifted j = if cleared.length ≤ j then 1
      else if j < col then Row.widthAt cleared j
      else if j < col + n then 1 else Row.widthAt cleared (j - n) := by
  unfold Row.widthAt
  rw [h]
  split_ifs <;> rfl

theorem regular (h : Shifted cleared shifted col n) (hregular : Regular cleared) :
    Regular shifted := by
  intro cell hcell
  obtain ⟨j, hj⟩ := List.mem_iff_getElem?.1 hcell
  rw [h] at hj
  split_ifs at hj
  · exact hregular.at hj
  · cases hj
    exact .inl rfl
  · exact hregular.at hj

/-- Only at the right edge can a character be cut. -/
theorem whole (h : Shifted cleared shifted col n) (hpaired : Paired cleared)
    (hself : Row.widthAt cleared col = 1) (j : Nat) :
    WholeAt (Row.widthAt shifted) j ∨ j + 1 = cleared.length ∧ col + n ≤ j ∧
      Row.widthAt cleared (j - n) = 2 := by
  obtain ⟨hfirst, hhead, htail⟩ := hpaired.whole
  have hbeyond : Row.widthAt cleared cleared.length = 1 := widthAt_of_le le_rfl
  by_cases hcut : j + 1 = cleared.length ∧ col + n ≤ j ∧ Row.widthAt cleared (j - n) = 2
  · exact .inr hcut
  refine .inl ⟨fun htwo => ?_, fun hzero => ?_⟩
  · -- a wide cell has its continuation beside it, unless the edge is there
    rw [h.widthAt] at htwo
    rw [h.widthAt]
    split_ifs at htwo with hout hleft hblank
    · cases htwo
    · have hnext := hhead j htwo
      have hne : j + 1 ≠ col := fun heq => by rw [heq] at hnext; omega
      have hedge : j + 1 ≠ cleared.length := fun heq => by rw [heq] at hnext; omega
      rw [if_neg (by omega), if_pos (by omega), hnext]
    · cases htwo
    · have hnext := hhead (j - n) htwo
      rw [if_neg (by omega), if_neg (by omega), if_neg (by omega),
        show j + 1 - n = j - n + 1 by omega, hnext]
  · -- a continuation has its wide cell beside it, the column having none
    rw [h.widthAt] at hzero
    rw [h.widthAt]
    split_ifs at hzero with hout hleft hblank
    · have hpos : 0 < j := Nat.pos_of_ne_zero fun heq => hfirst (heq ▸ hzero)
      have hprev := htail (j - 1) (by rwa [Nat.sub_add_cancel hpos])
      exact ⟨hpos, by rw [if_neg (by omega), if_pos (by omega), hprev]⟩
    · have hne : j - n ≠ col := fun heq => by rw [heq] at hzero; omega
      have hprev := htail (j - n - 1) (by rwa [Nat.sub_add_cancel (by omega)])
      refine ⟨by omega, ?_⟩
      rw [if_neg (by omega), if_neg (by omega), if_neg (by omega),
        show j - 1 - n = j - n - 1 by omega, hprev]

end Shifted

/-- The character at the column is blanked first. -/
theorem runs_clearAt (hreg : Regular row.cells) (col : Nat) :
    Runs (if col < row.len then row.clearWidePairAround col .default else pure row) fun row' =>
      ClearedAt row.cells row'.cells col ∧ Touches .default row.cells row'.cells := by
  refine .ite (fun _ => ?_) fun hout => .pure ⟨.refl hreg fun i hi => ?_, .refl _ _⟩
  · exact ((runs_clearWidePairAround hreg col .default).and
      (touches_clearWidePairAround row col .default)).mono fun _ h => ⟨h.1.1, h.2⟩
  · have hwidth : widthAt row.cells col = 1 := widthAt_of_le (not_lt.1 hout)
    unfold Hit at hi
    omega

/-- Every column of the row after an insertion. -/
theorem runs_insertChars_at (h : row.Sound cols) (hcol : col ≤ cols) (n : Nat) :
    Runs (row.insertChars col n) fun row' => row'.cells.length = cols ∧
      ∃ cleared, ClearedAt row.cells cleared col ∧ Touches .default row.cells cleared ∧
        ∀ j, row'.cells[j]? = insertedAt cleared col n j := by
  have hlen : row.cells.length = cols := h.length
  refine .bind (runs_clearAt h.paired.regular col) fun row₁ ⟨hcleared, htouches⟩ => ?_
  have hlen₁ : row₁.cells.length = cols := hcleared.length.trans hlen
  refine .bind (runs_shiftRight_at row₁.cells (by omega) n) fun cells ⟨hlength, hat⟩ => ?_
  have hshifted := shifted_blankRange hat
  have hslen : (blankRange cells col (min (col + n) row₁.len)).length = cols := by
    rw [blankRange, List.length_mapIdx, hlength, hlen₁]
  have hpaired₁ := hcleared.paired h.paired
  have hfrom := hshifted.regular hpaired₁.regular
  refine .mono ((runs_sanitizeWidePairs hfrom .default).and
    (touches_sanitizeWidePairs hfrom .default)) ?_
  change Shifted _ (blankRange cells col (min (col + n) row₁.len)) col n at hshifted
  rintro row' ⟨⟨hpaired', hlen', hsame⟩, htouches'⟩
  dsimp only at hlen' hsame htouches'
  refine ⟨hlen'.trans hslen, row₁.cells, hcleared, htouches, fun j => ?_⟩
  unfold insertedAt
  obtain hat' | ⟨hlast, hfar, hcut⟩ :=
    hshifted.whole hpaired₁ (hcleared.width_self h.paired.regular) j
  · rw [hsame j hat', hshifted]
    split_ifs with hout hleft hblank hcut
    · rfl
    · rfl
    · rfl
    · -- a whole character does not begin in the last column
      have htwo : widthAt (blankRange cells col (min (col + n) row₁.len)) j = 2 := by
        rw [hshifted.widthAt, if_neg hout, if_neg hleft, if_neg hblank, hcut.2]
      have hnext := hat'.1 htwo
      rw [hshifted.widthAt, if_pos (by omega)] at hnext
      cases hnext
    · rfl
  · rw [if_neg (by omega), if_neg (by omega), if_neg (by omega), if_pos ⟨hlast, hcut⟩]
    apply htouches'.eq_empty
    intro hwidth
    have htwo : widthAt (blankRange cells col (min (col + n) row₁.len)) j = 2 := by
      rw [hshifted.widthAt, if_neg (by omega), if_neg (by omega), if_neg (by omega), hcut]
    have hnext := hpaired'.whole.head j (hwidth.trans htwo)
    rw [widthAt_of_le (by omega)] at hnext
    cases hnext

/-- Every whole character from `col` on that still fits is `n` columns further right, as it was;
the columns it leaves are blank, and so is what the column or the right edge cuts. -/
structure MovesIntact (cells cells' : List Cell) (col n : Nat) : Prop where
  length : cells'.length = cells.length
  blanks : ∀ i, col ≤ i → i < col + n → i < cells.length → cells'[i]? = some .empty
  single : ∀ i, col ≤ i → i + n < cells.length → widthAt cells i = 1 → cells'[i + n]? = cells[i]?
  pair : ∀ i, col ≤ i → i + n + 1 < cells.length → widthAt cells i = 2 →
    cells'[i + n]? = cells[i]? ∧ cells'[i + n + 1]? = cells[i + 1]?
  left : ∀ i, i < col → ¬(i + 1 = col ∧ widthAt cells i = 2) → cells'[i]? = cells[i]?
  cutLeft : ∀ i, i + 1 = col → widthAt cells i = 2 → cells'[i]? = some .empty ∧
    (col + n < cells.length → cells'[col + n]? = some .empty)
  cutRight : ∀ i, col ≤ i → widthAt cells i = 2 → i + n + 1 = cells.length →
    cells'[i + n]? = some .empty

/-- The column has the first half of a wide character that would still fit after the move. -/
def HeadFits (cells : List Cell) (col n : Nat) : Prop :=
  widthAt cells col = 2 ∧ col + n + 1 < cells.length

theorem not_hit_of_single {w : Nat → Nat} {i : Nat} (hcol : col ≤ i) (hone : w i = 1) :
    ¬Hit w col i := by
  rintro (⟨rfl, hzero | htwo⟩ | ⟨-, -, htwo⟩ | ⟨-, -, hzero⟩)
  · omega
  · omega
  · omega
  · omega

/-- The one character that does not move is the wide one that begins in the column. -/
theorem movesIntact_iff {cleared : List Cell} (hpaired : Paired cells) {n : Nat} (hn : 0 < n)
    (hcleared : ClearedAt cells cleared col) (htouches : Touches .default cells cleared)
    (hlen : cells'.length = cells.length)
    (hat : ∀ j, cells'[j]? = insertedAt cleared col n j) :
    MovesIntact cells cells' col n ↔ ¬HeadFits cells col n := by
  have hlength := hcleared.length
  have hself := hcleared.width_self hpaired.regular
  have hwidth := hcleared.widthAt
  constructor
  · rintro hmoves ⟨hhead, hfits⟩
    have hmoved := (hmoves.pair col le_rfl hfits hhead).1
    rw [hat, insertedAt, if_neg (by omega), if_neg (by omega), if_neg (by omega),
      if_neg (by omega), Nat.add_sub_cancel] at hmoved
    have hsame : widthAt cleared col = widthAt cells col := widthAt_congr hmoved
    omega
  · intro hfits
    have hhit : ∀ i, Hit (widthAt cells) col i → cleared[i]? = some .empty := by
      intro i hi
      refine htouches.eq_empty ?_
      rw [hcleared.hit i hi]
      rcases hi with ⟨rfl, hzero | htwo⟩ | ⟨-, -, htwo⟩ | ⟨-, -, hzero⟩
      · omega
      · omega
      · omega
      · omega
    refine ⟨hlen, fun i hcol hi hlt => ?_, fun i hcol hlt hone => ?_, fun i hcol hlt htwo => ?_,
      fun i hcol hnot => ?_, fun i hcol htwo => ?_, fun i hcol htwo hlast => ?_⟩
    · rw [hat, insertedAt, if_neg (by omega), if_neg (by omega), if_pos (by omega)]
    · have hkept := hcleared.kept i (not_hit_of_single hcol hone)
      have hsame := widthAt_congr hkept
      rw [hat, insertedAt, if_neg (by omega), if_neg (by omega), if_neg (by omega),
        Nat.add_sub_cancel, if_neg (by omega), hkept]
    · have hne : i ≠ col := fun heq => hfits ⟨heq ▸ htwo, by omega⟩
      have htail := hpaired.whole.head i htwo
      have hkept := hcleared.kept i (by unfold Hit; omega)
      have hkept' := hcleared.kept (i + 1) (by unfold Hit; omega)
      have hsame' := widthAt_congr hkept'
      constructor
      · rw [hat, insertedAt, if_neg (by omega), if_neg (by omega), if_neg (by omega),
          Nat.add_sub_cancel, if_neg (by omega), hkept]
      · rw [hat, insertedAt, if_neg (by omega), if_neg (by omega), if_neg (by omega),
          show i + n + 1 - n = i + 1 by omega, if_neg (by omega), hkept']
    · have hkept := hcleared.kept i (by unfold Hit; omega)
      rw [hat, insertedAt]
      by_cases hout : cells.length ≤ i
      · rw [if_pos (by omega), List.getElem?_eq_none hout]
      · rw [if_neg (by omega), if_pos hcol, hkept]
    · have htail := hpaired.whole.head i htwo
      have hi := lt_length_of_widthAt (show widthAt cells i ≠ 1 by omega)
      rw [hcol] at htail
      have hblank := hhit i (by unfold Hit; omega)
      have hblank' := hhit col (by unfold Hit; omega)
      refine ⟨?_, fun hlt => ?_⟩
      · rw [hat, insertedAt, if_neg (by omega), if_pos (by omega), hblank]
      · rw [hat, insertedAt, if_neg (by omega), if_neg (by omega), if_neg (by omega),
          Nat.add_sub_cancel, if_neg (by omega), hblank']
    · rw [hat, insertedAt, if_neg (by omega), if_neg (by omega), if_neg (by omega),
        Nat.add_sub_cancel]
      by_cases hi : i = col
      · subst hi
        rw [if_neg (by omega), hhit i (by unfold Hit; omega)]
      · have hkept := widthAt_congr (hcleared.kept i (by unfold Hit; omega))
        rw [if_pos ⟨by omega, hkept.trans htwo⟩]

/-- Past the row there is nothing to move. -/
theorem movesIntact_of_lt {n : Nat} (hlen : cells'.length = cells.length)
    (hcol : cells.length < col) (hsame : ∀ i, i + 1 < col → cells'[i]? = cells[i]?) :
    MovesIntact cells cells' col n where
  length := hlen
  blanks i _ _ _ := by omega
  single i _ _ _ := by omega
  pair i _ _ _ := by omega
  left i _ _ := by
    by_cases hi : i + 1 < col
    · exact hsame i hi
    · rw [List.getElem?_eq_none (by omega), List.getElem?_eq_none (by omega)]
  cutLeft i _ htwo := by
    have hi := lt_length_of_widthAt (show widthAt cells i ≠ 1 by omega)
    omega
  cutRight i _ htwo _ := by omega

theorem Sound.insertChars_movesIntact (h : row.Sound cols) (col : Nat) {n : Nat} (hn : 0 < n) :
    Runs (row.insertChars col n) fun row' =>
      (MovesIntact row.cells row'.cells col n ↔ ¬HeadFits row.cells col n) := by
  have hlen : row.cells.length = cols := h.length
  by_cases hcol : col ≤ cols
  · apply (runs_insertChars_at h hcol n).mono
    rintro row' ⟨hlen', cleared, hcleared, htouches, hat⟩
    exact movesIntact_iff h.paired hn hcleared htouches (hlen'.trans hlen.symm) hat
  · apply (h.insertChars col n).mono
    rintro row' ⟨hsound, hsame⟩
    have hmoves := movesIntact_of_lt (n := n) (hsound.length.trans hlen.symm) (by omega) hsame
    exact iff_of_true hmoves fun hhead => by have hfits := hhead.2; omega

end Row

/-- Inserting characters moves every character that still fits exactly when the column does not
have the first half of a wide one that would fit. -/
theorem Grid.Ok.insertChars_movesIntact_iff {g : Grid} (h : g.Ok) {row : Nat} (hrow : row < g.rows)
    (col : Nat) {n : Nat} (hn : 0 < n) :
    ∃ g' old new, g.insertChars row col n = some g' ∧ g.visibleRow row = some old ∧
      g'.visibleRow row = some new ∧
      (Row.MovesIntact old.cells new.cells col n ↔ ¬Row.HeadFits old.cells col n) := by
  have hrun : Runs (g.insertChars row col n) fun g' => ∃ old new,
      g.visibleRow row = some old ∧ g'.visibleRow row = some new ∧
        (Row.MovesIntact old.cells new.cells col n ↔ ¬Row.HeadFits old.cells col n) := by
    refine .bind (h.bumpMutations.editRow (Q := fun old out =>
      Row.MovesIntact old.cells out.1.cells col n ↔ ¬Row.HeadFits old.cells col n) hrow
      fun old hold => ?_) ?_
    · apply Runs.bind (hold.insertChars_movesIntact col hn)
      exact fun new hnew => .pure hnew
    · rintro ⟨g', len⟩ ⟨old, new, hold, -, hmoves, rfl⟩
      have hlt : g.scrollbackLen + row < g.raw.length := (List.getElem?_eq_some_iff.mp hold).1
      have hnew : (g.bumpMutations.raw.set (g.scrollbackLen + row) new)[(g.bumpMutations.raw.set
          (g.scrollbackLen + row) new).length - g.rows + row]? = some new := by
        rw [List.length_set]
        exact List.getElem?_set_self hlt
      apply Runs.ite
      · intro _
        apply Runs.bind (h.dirty.markRange row (col - 1) len)
        exact fun dirty _ => .pure ⟨old, new, hold, hnew, hmoves⟩
      · exact fun _ => .pure ⟨old, new, hold, hnew, hmoves⟩
  obtain ⟨g', hg', old, new, hrest⟩ := hrun
  exact ⟨g', old, new, hg', hrest⟩

namespace Sample

/-- A wide character and a letter in a row of five columns. -/
def wideThenLetter : Row :=
  ⟨[⟨'\u6f22', 2, .default, none⟩, .wideContinuation, ⟨'A', 1, .default, none⟩, .empty, .empty],
    false⟩

def screen : Grid := { Grid.new 1 5 .default with raw := [wideThenLetter] }

theorem sound_wideThenLetter : wideThenLetter.Sound 5 := by
  have hregular : ∀ cell ∈ wideThenLetter.cells,
      cell.width = 1 ∨ cell.width = 2 ∨ cell = .wideContinuation := by decide
  refine ⟨rfl, hregular, ⟨by decide, ?_, ?_⟩⟩
  all_goals
    rintro (_ | _ | _ | _ | _ | i) hi
    · rfl
    all_goals cases hi

theorem ok_screen : screen.Ok where
  rows_le := le_rfl
  sound row hrow := by
    rw [List.mem_singleton.1 hrow]
    exact sound_wideThenLetter
  dirty := DirtyState.fits_new 1 5 true
  enabled := rfl

/-- Inserting before the letter moves it. -/
theorem insertChars_movesIntact_letter :
    ∃ g' new, screen.insertChars 0 2 1 = some g' ∧ g'.visibleRow 0 = some new ∧
      Row.MovesIntact wideThenLetter.cells new.cells 2 1 := by
  obtain ⟨g', old, new, hg', hold, hnew, hiff⟩ :=
    ok_screen.insertChars_movesIntact_iff (Nat.one_pos : 0 < 1) 2 Nat.one_pos
  cases hold
  exact ⟨g', new, hg', hnew, hiff.2 fun hfits => by cases hfits.1⟩

/-- Inserting before the wide character takes it away. -/
theorem insertChars_erases_wide :
    ¬ ∀ g : Grid, g.Ok → ∀ row < g.rows, ∀ col n, 0 < n →
      ∃ g' old new, g.insertChars row col n = some g' ∧ g.visibleRow row = some old ∧
        g'.visibleRow row = some new ∧ Row.MovesIntact old.cells new.cells col n := by
  intro hclaim
  obtain ⟨g', old, new, hg', hold, hnew, hmoves⟩ :=
    hclaim screen ok_screen 0 Nat.one_pos 0 1 Nat.one_pos
  cases hold
  have hrun : (screen.insertChars 0 0 1).bind (fun g => g.visibleRow 0) =
      some ⟨[.empty, .empty, .empty, ⟨'A', 1, .default, none⟩, .empty], false⟩ := by
    decide
  rw [hg', Option.bind_some, hnew, Option.some.injEq] at hrun
  subst hrun
  have hmoved := (hmoves.pair 0 le_rfl (by decide) rfl).1
  revert hmoved
  decide

end Sample

end Shux.Vt
