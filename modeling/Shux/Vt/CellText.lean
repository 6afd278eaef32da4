/-
# The text of a cell

A character starts with one scalar in its cell and grows there scalar by scalar. A cell that takes a
scalar had room for it, and one that refuses it is left alone.
-/

import Shux.Vt.Settles

namespace Shux.Vt

open Checked

/-- A cell that takes a scalar has room for it. -/
theorem Cell.length_displayText_lt {cell joined : Cell} {ch : Char}
    (h : cell.appendGraphemeScalar ch = some joined) :
    cell.displayText.length < maxGraphemeScalars := by
  unfold appendGraphemeScalar at h
  cases hpayload : cell.grapheme with
  | none =>
    have htext : cell.displayText = [cell.ch] := by rw [displayText, hpayload]; rfl
    rw [htext, List.length_singleton]
    decide
  | some existing =>
    have htext : cell.displayText = existing := by rw [displayText, hpayload]; rfl
    rw [hpayload] at h
    dsimp only at h
    split at h
    · cases h
    · next hroom =>
      rw [htext]
      omega

namespace Row

variable {row : Row}

/-- What became of a row when a scalar was offered to one of its cells. -/
def Offered (col : Nat) (row : Row) (out : Row × Bool) : Prop :=
  (out.2 = false → out.1 = row) ∧
  (out.2 = true → ∃ cell, row.cells[col]? = some cell ∧
    cell.displayText.length < maxGraphemeScalars)

theorem yields_joinScalar (row : Row) (col width : Nat) (bg : Color) (ch : Char) :
    Yields (row.joinScalar col width bg ch) (Offered col row) := by
  refine Yields.bind (P := fun cell => row.cells[col]? = some cell) (fun _ h => h)
    fun cell hcell => ?_
  split
  · exact .pure ⟨fun _ => rfl, (by rintro ⟨⟩)⟩
  · next joined happend =>
    refine .after fun row₁ => .after fun row₂ => .pure ⟨(by rintro ⟨⟩), fun _ => ?_⟩
    exact ⟨cell, hcell, Cell.length_displayText_lt happend⟩

theorem offered_appendScalar (row : Row) (col : Nat) (ch : Char) :
    Offered col row (row.appendScalar col ch) := by
  unfold appendScalar
  split
  · exact ⟨fun _ => rfl, (by rintro ⟨⟩)⟩
  · next joined hjoined =>
    obtain ⟨cell, hcell, happend⟩ := Option.bind_eq_some_iff.mp hjoined
    exact ⟨(by rintro ⟨⟩), fun _ => ⟨cell, hcell, Cell.length_displayText_lt happend⟩⟩

end Row

namespace Grid

variable {g g' : Grid}

/-- The text of a visible cell. -/
def textAt (g : Grid) (row col : Nat) : Option (List Char) :=
  (g.cellAt row col).map Cell.displayText

/-- An edit of one visible row. -/
theorem yields_editRowMarked {β : Type} (g : Grid) (row : Nat) (f : Row → Checked (Row × β)) :
    Yields (g.editRowMarked row f) fun out => ∃ old new,
      g.raw[g.scrollbackLen + row]? = some old ∧ f old = some (new, out.2) ∧
      out.1.raw = g.raw.set (g.scrollbackLen + row) new ∧ out.1.rows = g.rows := by
  refine .after fun dirty => ?_
  intro out heq
  obtain ⟨old, hold, hrest⟩ := Option.bind_eq_some_iff.mp heq
  obtain ⟨⟨new, b⟩, hf, hrest⟩ := Option.bind_eq_some_iff.mp hrest
  obtain ⟨raw, hassign, hout⟩ := Option.bind_eq_some_iff.mp hrest
  cases hout
  unfold assign at hassign
  split at hassign
  · cases hassign
    exact ⟨old, new, hold, hf, rfl, rfl⟩
  · cases hassign

/-- What became of the text of a grid when a scalar was offered to one of its cells. -/
structure Offered (g : Grid) (row col : Nat) (out : Grid × Bool) : Prop where
  refused : out.2 = false → ∀ r c, out.1.textAt r c = g.textAt r c
  taken : out.2 = true → ∃ text, g.textAt row col = some text ∧ text.length < maxGraphemeScalars

theorem yields_offer (g : Grid) (row col : Nat) {f : Row → Checked (Row × Bool)}
    (hf : ∀ old, Yields (f old) (Row.Offered col old)) :
    Yields (g.editRowMarked row f) (Offered g row col) := by
  refine (g.yields_editRowMarked row f).mono fun out h => ?_
  obtain ⟨old, new, hold, heq, hraw, hrows⟩ := h
  have hoffer := hf old _ heq
  refine ⟨fun hrefused r c => ?_, fun htaken => ?_⟩
  · have hsame : new = old := hoffer.1 hrefused
    obtain ⟨_, hget⟩ := List.getElem?_eq_some_iff.mp hold
    rw [hsame, ← hget, List.set_getElem_self] at hraw
    rw [textAt, textAt, cellAt, cellAt, scrollbackLen, scrollbackLen, hraw, hrows]
  · obtain ⟨cell, hcell, hroom⟩ := hoffer.2 htaken
    refine ⟨cell.displayText, ?_, hroom⟩
    rw [textAt, cellAt, hold, Option.bind_some, hcell]
    rfl

end Grid

end Shux.Vt
