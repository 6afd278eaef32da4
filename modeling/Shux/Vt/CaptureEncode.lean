/-
# What the encoder makes of a row

The loop over the columns of a row takes a glyph at a time. Followed together with the run at
hand, it cuts the glyphs into blanks and runs.
-/

import Shux.Vt.CaptureRuns

namespace Shux.Vt

open List Cell

/-- The run at hand holds these glyphs. -/
structure RunBuilder.Holds (b : RunBuilder) (glyphs : List Cell) : Prop where
  entries : b.entries = glyphs.flatMap Cell.entries
  allSimple : b.allSimple = glyphs.all isSimple
  style : ∀ glyph ∈ glyphs, CapStyle.fromCell glyph = b.style
  drawn : ∀ glyph ∈ glyphs, glyph ≠ .empty
  nextCol : b.nextCol = b.start + (expand glyphs).length

namespace RunBuilder

variable {b : RunBuilder} {glyphs : List Cell}

theorem holds_nil (colu : Nat) (style : CapStyle) : Holds ⟨colu, [], style, true, colu⟩ [] :=
  ⟨rfl, rfl, (fun _ hmem => nomatch hmem), (fun _ hmem => nomatch hmem), rfl⟩

theorem flatten_entries (h : ∀ glyph ∈ glyphs, glyph.isSimple = true) :
    (glyphs.flatMap Cell.entries).flatten = glyphs.flatMap displayText := by
  induction glyphs with
  | nil => rfl
  | cons glyph glyphs ih =>
    have hone : glyph.entries = [glyph.displayText] := by
      unfold Cell.entries isWide
      rw [(isSimple_iff.mp (h glyph (mem_cons_self ..))).1]
      rfl
    rw [flatMap_cons, flatMap_cons, flatten_append, hone, ih fun g hg => h g (mem_cons_of_mem _ hg)]
    simp

theorem Holds.finish (h : b.Holds glyphs) :
    b.finish = .cells b.start (contentOf glyphs) b.style := by
  unfold RunBuilder.finish contentOf
  rw [h.entries, h.allSimple]
  split
  · next hall => rw [flatten_entries (all_eq_true.mp hall)]
  · rfl

end RunBuilder

namespace RowEncoder

variable {e : RowEncoder}
variable {glyph : Cell} {col : Nat}

theorem endMask_eq (hmask : e.maskStart = none) (colu : Nat) : e.endMask colu = e := by
  obtain ⟨runs, cur, maskStart⟩ := e
  cases hmask
  unfold endMask
  rw [Option.map_none, Option.toList_none, append_nil]

/-- The run that takes in a glyph. -/
def grown (b : RunBuilder) (glyph : Cell) (colu : Nat) : RunBuilder :=
  if glyph.isWide then
    { b with
      entries := b.entries ++ [glyph.displayText, []], allSimple := false
      nextCol := asU16 (colu + 2) }
  else
    { b with
      entries := b.entries ++ [glyph.displayText], allSimple := b.allSimple && glyph.isSimple
      nextCol := asU16 (colu + 1) }

theorem start_grown (b : RunBuilder) (glyph : Cell) (colu : Nat) :
    (grown b glyph colu).start = b.start := by
  unfold grown
  split <;> rfl

theorem style_grown (b : RunBuilder) (glyph : Cell) (colu : Nat) :
    (grown b glyph colu).style = b.style := by
  unfold grown
  split <;> rfl

theorem nextCol_grown {b : RunBuilder} {colu : Nat} (hfits : colu + glyph.columns.length < 2 ^ 16) :
    (grown b glyph colu).nextCol = colu + glyph.columns.length := by
  unfold grown columns asU16 at *
  cases hwide : glyph.isWide with
  | true =>
    rw [hwide] at hfits
    exact Nat.mod_eq_of_lt hfits
  | false =>
    rw [hwide] at hfits
    exact Nat.mod_eq_of_lt hfits

theorem pushCell_eq (e : RowEncoder) (glyph : Cell) (colu : Nat) :
    e.pushCell glyph colu =
      { (e.builderAt (.fromCell glyph) colu).1 with
        cur := some (grown (e.builderAt (.fromCell glyph) colu).2 glyph colu) } :=
  rfl

variable {glyphs : List Cell}

/-- A run that ends where a glyph of its style starts takes it in. -/
theorem holds_grown {b : RunBuilder} {colu : Nat}
    (h : b.Holds glyphs) (hstyle : CapStyle.fromCell glyph = b.style) (hglyph : glyph.IsGlyph)
    (hdrawn : glyph ≠ .empty) (hnext : b.nextCol = colu)
    (hfits : colu + glyph.columns.length < 2 ^ 16) :
    (grown b glyph colu).Holds (glyphs ++ [glyph]) := by
  have hmem : ∀ g ∈ glyphs ++ [glyph], g ∈ glyphs ∨ g = glyph := fun g hg => by
    simpa using mem_append.mp hg
  have hexpand : expand (glyphs ++ [glyph]) = expand glyphs ++ glyph.columns := by
    rw [expand_append, expand_cons]
    simp [expand]
  have hentries : (glyphs ++ [glyph]).flatMap Cell.entries = b.entries ++ glyph.entries := by
    rw [flatMap_append, h.entries, flatMap_singleton]
  have hall : (glyphs ++ [glyph]).all isSimple = (b.allSimple && glyph.isSimple) := by
    rw [all_append, h.allSimple, all_cons, all_nil, Bool.and_true]
  have hsame : ∀ g ∈ glyphs ++ [glyph], CapStyle.fromCell g = b.style := fun g hg =>
    (hmem g hg).elim (h.style g) fun heq => heq ▸ hstyle
  have hvisible : ∀ g ∈ glyphs ++ [glyph], g ≠ .empty := fun g hg =>
    (hmem g hg).elim (h.drawn g) fun heq => heq ▸ hdrawn
  have hprev := h.nextCol
  rcases hglyph with hone | htwo
  · have hwide : glyph.isWide = false := by unfold isWide; rw [hone]; rfl
    rw [columns_narrow hone] at hexpand hfits
    unfold grown
    rw [hwide, if_neg Bool.false_ne_true]
    refine ⟨?_, hall.symm, hsame, hvisible, ?_⟩
    · rw [hentries, Cell.entries, hwide]
      rfl
    · dsimp only
      rw [hexpand, length_append, asU16, Nat.mod_eq_of_lt (show colu + 1 < 2 ^ 16 from hfits),
        ← Nat.add_assoc, ← hprev, hnext]
      rfl
  · have hwide : glyph.isWide = true := by unfold isWide; rw [htwo]; rfl
    have hsimple : glyph.isSimple = false := by unfold isSimple; rw [htwo]; rfl
    rw [columns_wide htwo] at hexpand hfits
    unfold grown
    rw [hwide, if_pos rfl]
    refine ⟨?_, ?_, hsame, hvisible, ?_⟩
    · rw [hentries, Cell.entries, hwide]
      rfl
    · rw [hall, hsimple, Bool.and_false]
    · dsimp only
      rw [hexpand, length_append, asU16, Nat.mod_eq_of_lt (show colu + 2 < 2 ^ 16 from hfits),
        ← Nat.add_assoc, ← hprev, hnext]
      rfl

theorem isBlankDefault_iff {cell : Cell} : cell.isBlankDefault = true ↔ cell = .empty := by
  obtain ⟨ch, width, style, extended⟩ := cell
  unfold isBlankDefault empty
  simp only [Bool.and_eq_true, beq_iff_eq, Option.isNone_iff_eq_none, Cell.mk.injEq, and_assoc]

variable {cellAt : Nat → Cell} {masked : Nat → Bool} {cols : Nat}

/-- The runs of a row, once the loop is through. -/
def close (e : RowEncoder) (colu : Nat) : List Run := (e.flushCells.endMask colu).runs

theorem close_eq (hmask : e.maskStart = none) (colu : Nat) :
    e.close colu = e.runs ++ (e.cur.map RunBuilder.finish).toList := by
  unfold close
  rw [endMask_eq (show e.flushCells.maskStart = none from hmask)]
  rfl

/-- What is still to come of the runs: those of the glyphs ahead, after the run at hand. -/
def Continues (e : RowEncoder) (col : Nat) (glyphs : List Cell) (runs : List Run) : Prop :=
  match e.cur with
  | none => Encodes col none glyphs runs
  | some b => ∀ held, held ≠ [] → b.Holds held → b.nextCol = col →
      ∀ prev, prev ≠ some b.style → Encodes b.start prev (held ++ glyphs) runs

/-- Closing the run at hand adds it to what a loop without one adds. -/
theorem continues_flush {runs : List Run}
    (hrest : ∀ prev, (∀ b, e.cur = some b → prev = some b.style) →
      (e.cur = none → prev = none) → Encodes col prev glyphs runs) :
    e.Continues col glyphs ((e.cur.map RunBuilder.finish).toList ++ runs) := by
  unfold Continues
  cases hcur : e.cur with
  | none => exact hrest none (fun b hb => nomatch hcur.symm.trans hb) fun _ => rfl
  | some b =>
    intro held hne hheld hnext prev hprev
    rw [Option.map_some, hheld.finish]
    have hafter := hrest (some b.style)
      (fun b' hb' => by cases hcur.symm.trans hb'; rfl) (fun hnone => nomatch hcur.symm.trans hnone)
    refine .run hne hheld.style hheld.drawn hprev ?_
    rw [← hheld.nextCol, hnext]
    exact hafter

/-- The columns ahead are those of the glyphs. -/
def Ahead (cellAt : Nat → Cell) (col : Nat) (glyphs : List Cell) : Prop :=
  ∀ i cell, (expand glyphs)[i]? = some cell → cellAt (col + i) = cell

theorem Ahead.head (h : Ahead cellAt col (glyph :: glyphs)) : cellAt col = glyph := by
  refine h 0 glyph ?_
  rw [expand_cons]
  unfold columns
  split <;> rfl

theorem Ahead.tail (h : Ahead cellAt col (glyph :: glyphs)) :
    Ahead cellAt (col + glyph.columns.length) glyphs := by
  intro i cell hcell
  rw [Nat.add_assoc]
  refine h _ cell ?_
  rw [expand_cons, List.getElem?_append_right (by omega), Nat.add_sub_cancel_left]
  exact hcell

theorem length_columns : (if glyph.isWide then 2 else 1) = glyph.columns.length := by
  unfold columns
  split <;> rfl

/-- The loop cuts the glyphs ahead into blanks and runs. -/
theorem encodeFrom_spec (hmasked : ∀ c, masked c = false) (hcols : cols < 2 ^ 16)
    (hglyphs : ∀ glyph ∈ glyphs, glyph.IsGlyph)
    (hlen : col + (expand glyphs).length = cols) (hahead : Ahead cellAt col glyphs)
    {e : RowEncoder} (hmask : e.maskStart = none) (hnext : ∀ b, e.cur = some b → b.nextCol = col)
    (colu : Nat) :
    ∃ runs, (encodeFrom cellAt masked cols e col).close colu = e.runs ++ runs ∧
      e.Continues col glyphs runs := by
  induction glyphs generalizing col e with
  | nil =>
    have hend : ¬col < cols := by
      rw [expand, flatMap_nil, length_nil] at hlen
      omega
    rw [encodeFrom, if_neg hend, close_eq hmask]
    refine ⟨_, rfl, ?_⟩
    have hdone := @continues_flush e col [] [] fun _ _ _ => .done
    rwa [append_nil] at hdone
  | cons glyph glyphs ih =>
    have hglyph := hglyphs glyph (mem_cons_self ..)
    have hcont : glyph.isWideContinuation = false := by
      unfold isWideContinuation
      rcases hglyph with hone | htwo
      · rw [hone]
        rfl
      · rw [htwo]
        rfl
    rw [expand_cons, length_append] at hlen
    have hpos : 0 < glyph.columns.length := by
      unfold columns
      split <;> simp
    have hcolu : asU16 col = col := Nat.mod_eq_of_lt (by omega)
    have ih' := @ih (col + glyph.columns.length) (fun g hg => hglyphs g (mem_cons_of_mem _ hg))
      (by omega) hahead.tail
    rw [encodeFrom, if_pos (by omega), hmasked, if_neg Bool.false_ne_true, endMask_eq hmask,
      hahead.head]
    dsimp only
    rw [hcont, if_neg Bool.false_ne_true, hcolu, length_columns]
    by_cases hblank : glyph = .empty
    · -- a blank closes the run at hand
      subst hblank
      obtain ⟨runs, hclose, hruns⟩ := @ih' e.flushCells hmask fun b hb => by cases hb
      rw [if_pos (isBlankDefault_iff.mpr rfl)]
      refine ⟨_, hclose.trans (append_assoc ..), continues_flush fun prev _ _ => .blank hruns⟩
    · rw [if_neg fun h => hblank (isBlankDefault_iff.mp h), pushCell_eq]
      have hfits : col + glyph.columns.length < 2 ^ 16 := by omega
      by_cases hextends : ∃ b, e.cur = some b ∧ b.style = CapStyle.fromCell glyph
      · -- the run at hand goes on
        obtain ⟨b, hcur, hstyle⟩ := hextends
        have hbuilder : e.builderAt (.fromCell glyph) col = (e, b) := by
          unfold builderAt
          rw [hcur]
          exact if_pos ⟨hstyle, hnext b hcur⟩
        obtain ⟨runs, hclose, hruns⟩ := @ih' { e with cur := some (grown b glyph col) } hmask
          fun b' hb' => by cases hb'; exact nextCol_grown hfits
        rw [hbuilder]
        refine ⟨runs, hclose, ?_⟩
        unfold Continues at hruns ⊢
        rw [hcur]
        intro held hne hheld hcol prev hprev
        have hmore := hruns (held ++ [glyph]) (append_ne_nil_of_left_ne_nil hne _)
          (holds_grown hheld hstyle.symm hglyph hblank hcol hfits) (nextCol_grown hfits) prev
          (by rwa [style_grown])
        rwa [start_grown, append_assoc] at hmore
      · -- a new run starts
        have hbuilder : e.builderAt (.fromCell glyph) col =
            (e.flushCells, ⟨col, [], .fromCell glyph, true, col⟩) := by
          unfold builderAt
          cases hcur : e.cur with
          | none => rfl
          | some b => exact if_neg fun h => hextends ⟨b, hcur, h.1⟩
        obtain ⟨runs, hclose, hruns⟩ :=
          @ih' { e.flushCells with
              cur := some (grown ⟨col, [], .fromCell glyph, true, col⟩ glyph col) }
            hmask fun b' hb' => by cases hb'; exact nextCol_grown hfits
        rw [hbuilder]
        refine ⟨_, hclose.trans (append_assoc ..), continues_flush fun prev hsome hnone => ?_⟩
        have hmore := hruns [glyph] (cons_ne_nil glyph [])
          (holds_grown (RunBuilder.holds_nil col _) rfl hglyph hblank rfl hfits)
          (nextCol_grown hfits) prev
        rw [start_grown, style_grown] at hmore
        refine hmore ?_
        cases hcur : e.cur with
        | none =>
          rw [hnone hcur]
          intro h
          cases h
        | some b =>
          rw [hsome b hcur]
          exact fun h => hextends ⟨b, hcur, Option.some.inj h⟩

end RowEncoder

end Shux.Vt
