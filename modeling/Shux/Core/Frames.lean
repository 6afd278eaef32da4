/-
# Frames of the panes

Around each pane runs a frame one cell outside of it. When every split has room for its separator,
the frames of its two halves are the frame of what was split together with the separator; so the
frames of all panes are the frame of the viewport and the separators, and never touch a pane.
-/

import Shux.Core.Tiles

namespace Shux

open Pieces

variable {R : Type} [F32 R]

/-- The cells one step outside of a rectangle. -/
def Rect.OnFrame (r : Rect) (cell : Nat × Nat) : Prop :=
  (r.x ≤ cell.1 + 1 ∧ cell.1 ≤ r.x + r.width ∧ r.y ≤ cell.2 + 1 ∧ cell.2 ≤ r.y + r.height) ∧
    (cell.1 + 1 = r.x ∨ cell.1 = r.x + r.width ∨ cell.2 + 1 = r.y ∨ cell.2 = r.y + r.height)

/-- The far frame of a rectangle has coordinates in `u16` as well. -/
structure Rect.Inner (r : Rect) : Prop where
  width : r.x + r.width < 65536
  height : r.y + r.height < 65536

theorem Rect.Inner.fits {r : Rect} (h : r.Inner) : r.Fits := ⟨h.width.le, h.height.le⟩

/-- The sides of a rectangle are those of another or further in. -/
structure Rect.Inside (r viewport : Rect) : Prop where
  left : viewport.x ≤ r.x
  right : r.x + r.width ≤ viewport.x + viewport.width
  top : viewport.y ≤ r.y
  bottom : r.y + r.height ≤ viewport.y + viewport.height

theorem Rect.Inside.refl (r : Rect) : r.Inside r := ⟨le_rfl, le_rfl, le_rfl, le_rfl⟩

theorem Rect.Inside.trans {r r' r'' : Rect} (h : r.Inside r') (h' : r'.Inside r'') : r.Inside r'' :=
  ⟨h'.left.trans h.left, h.right.trans h'.right, h'.top.trans h.top, h.bottom.trans h'.bottom⟩

omit [F32 R] in
theorem Rect.covers_iff (r : Rect) (cell : Nat × Nat) :
    r.covers cell = true ↔
      r.x ≤ cell.1 ∧ cell.1 < r.x + r.width ∧ r.y ≤ cell.2 ∧ cell.2 < r.y + r.height := by
  rw [Rect.covers, decide_eq_true_eq]

/-- A frame runs outside of what it frames. -/
theorem Rect.OnFrame.not_covers {r : Rect} {cell : Nat × Nat} (h : r.OnFrame cell) :
    r.covers cell = false := by
  rw [Rect.covers, decide_eq_false_iff_not]
  obtain ⟨-, hedge⟩ := h
  omega

section Split

variable {viewport : Rect} {dir : Direction} {ratio : R}

/-- The two halves of a rectangle behind `a` cells, and the line of cells between them. -/
def Rect.cut (r : Rect) (a : Nat) : Direction → (Rect × Rect) × Rect
  | .vertical => ((⟨r.x, r.y, a, r.height⟩, ⟨r.x + a + 1, r.y, r.width - 1 - a, r.height⟩),
      ⟨r.x + a, r.y, 1, r.height⟩)
  | .horizontal => ((⟨r.x, r.y, r.width, a⟩, ⟨r.x, r.y + a + 1, r.width, r.height - 1 - a⟩),
      ⟨r.x, r.y + a, r.width, 1⟩)

/-- A split cuts its viewport, and no coordinate wraps around. -/
theorem exists_cut (hinner : viewport.Inner)
    (hshare : ∀ total, total < 65536 → share total ratio ≤ total) (hroom : 0 < viewport.along dir) :
    ∃ a, a < viewport.along dir ∧ splitRect viewport dir ratio = (viewport.cut a dir).1 ∧
      separator viewport dir ratio = (viewport.cut a dir).2 := by
  obtain ⟨hwidth, hheight⟩ := hinner
  cases dir with
  | vertical =>
    rw [Rect.along] at hroom ⊢
    have hle := hshare (viewport.width - 1) (by omega)
    refine ⟨share (viewport.width - 1) ratio, by omega, ?_⟩
    rw [splitRect_vertical, u16Add, u16Add, Nat.mod_eq_of_lt (by omega),
      Nat.mod_eq_of_lt (by omega)]
    exact ⟨rfl, rfl⟩
  | horizontal =>
    rw [Rect.along] at hroom ⊢
    have hle := hshare (viewport.height - 1) (by omega)
    refine ⟨share (viewport.height - 1) ratio, by omega, ?_⟩
    rw [splitRect_horizontal, u16Add, u16Add, Nat.mod_eq_of_lt (by omega),
      Nat.mod_eq_of_lt (by omega)]
    exact ⟨rfl, rfl⟩

/-- Both halves are in the viewport, and their far frames have coordinates in `u16` again. -/
theorem inside_splitRect (hinner : viewport.Inner)
    (hshare : ∀ total, total < 65536 → share total ratio ≤ total) (hroom : 0 < viewport.along dir) :
    (splitRect viewport dir ratio).1.Inside viewport ∧
      (splitRect viewport dir ratio).2.Inside viewport := by
  obtain ⟨a, hlt, hcut, -⟩ := exists_cut hinner hshare hroom
  rw [hcut]
  cases dir with
  | vertical =>
    rw [Rect.along] at hlt
    refine ⟨⟨le_rfl, ?_, le_rfl, le_rfl⟩, ⟨?_, ?_, le_rfl, le_rfl⟩⟩
    all_goals
      dsimp only [Rect.cut]
      omega
  | horizontal =>
    rw [Rect.along] at hlt
    refine ⟨⟨le_rfl, le_rfl, le_rfl, ?_⟩, ⟨le_rfl, le_rfl, ?_, ?_⟩⟩
    all_goals
      dsimp only [Rect.cut]
      omega

theorem Rect.Inside.inner {r r' : Rect} (h : r.Inside r') (hinner : r'.Inner) : r.Inner :=
  ⟨h.right.trans_lt hinner.width, h.bottom.trans_lt hinner.height⟩

/-- The frames of the two halves meet in the separator. -/
theorem onFrame_splitRect (hinner : viewport.Inner)
    (hshare : ∀ total, total < 65536 → share total ratio ≤ total) (hroom : 0 < viewport.along dir)
    (cell : Nat × Nat) :
    ((splitRect viewport dir ratio).1.OnFrame cell ∨
      (splitRect viewport dir ratio).2.OnFrame cell) ↔
      (viewport.OnFrame cell ∨ (separator viewport dir ratio).covers cell = true) := by
  obtain ⟨a, hlt, hcut, hbetween⟩ := exists_cut hinner hshare hroom
  rw [hcut, hbetween]
  cases dir with
  | vertical =>
    rw [Rect.along] at hlt
    simp only [Rect.OnFrame, Rect.covers_iff, Rect.cut]
    omega
  | horizontal =>
    rw [Rect.along] at hlt
    simp only [Rect.OnFrame, Rect.covers_iff, Rect.cut]
    omega

end Split

namespace LayoutNode

variable {t : LayoutNode R}

/-- The frames of the panes are the frame of the viewport and the separators. -/
theorem onFrame_rects (hshares : t.SharesBounded) {viewport : Rect}
    (hinner : viewport.Inner) (hroomy : t.Roomy viewport) (cell : Nat × Nat) :
    (∃ r ∈ t.rects viewport, r.OnFrame cell) ↔
      viewport.OnFrame cell ∨ ∃ s ∈ t.separators viewport, s.covers cell = true := by
  induction t generalizing viewport with
  | leaf pane => simp [rects, computeRects, separators]
  | node dir ratio a b iha ihb =>
    obtain ⟨hshare, ha, hb⟩ := hshares
    obtain ⟨hroom, hroomA, hroomB⟩ := hroomy
    obtain ⟨hinsideA, hinsideB⟩ := inside_splitRect hinner hshare hroom
    have hsplit := onFrame_splitRect hinner hshare hroom cell
    have hfirst := iha ha (hinsideA.inner hinner) hroomA
    have hsecond := ihb hb (hinsideB.inner hinner) hroomB
    rw [rects_node, separators]
    simp only [List.mem_append, List.mem_cons, or_and_right, exists_or, exists_eq_left]
    rw [hfirst, hsecond, or_or_or_comm, hsplit]
    simp only [or_assoc, or_left_comm]

/-- No pane has a cell on the frame of a pane. -/
theorem not_covers_of_onFrame (hshares : t.SharesBounded) {viewport : Rect}
    (hinner : viewport.Inner) (hroomy : t.Roomy viewport) {cell : Nat × Nat}
    (hframe : viewport.OnFrame cell ∨ ∃ s ∈ t.separators viewport, s.covers cell = true) :
    ∀ r ∈ t.rects viewport, r.covers cell = false := by
  intro r hr
  have htiles := tiles_rects hshares hinner.fits hroomy
  rw [Bool.eq_false_iff]
  intro hcovers
  rcases hframe with hframe | ⟨s, hs, hsep⟩
  · have hin := htiles.packs.mem (List.mem_append_left _ hr) hcovers
    rw [hframe.not_covers] at hin
    cases hin
  · exact (List.pairwise_append.1 htiles.packs.pairwise).2.2 r hr s hs cell ⟨hcovers, hsep⟩

/-- With room for the separators no pane sticks out, not even one without cells. -/
theorem inside_rects (hshares : t.SharesBounded) {viewport : Rect}
    (hinner : viewport.Inner) (hroomy : t.Roomy viewport) :
    ∀ r ∈ t.rects viewport, r.Inside viewport := by
  induction t generalizing viewport with
  | leaf pane =>
    intro r hr
    rw [rects, computeRects, List.map_singleton, List.mem_singleton] at hr
    rw [hr]
    exact .refl viewport
  | node dir ratio a b iha ihb =>
    obtain ⟨hshare, ha, hb⟩ := hshares
    obtain ⟨hroom, hroomA, hroomB⟩ := hroomy
    obtain ⟨hinsideA, hinsideB⟩ := inside_splitRect hinner hshare hroom
    intro r hr
    rw [rects_node, List.mem_append] at hr
    rcases hr with hr | hr
    · exact (iha ha (hinsideA.inner hinner) hroomA r hr).trans hinsideA
    · exact (ihb hb (hinsideB.inner hinner) hroomB r hr).trans hinsideB

end LayoutNode

end Shux
