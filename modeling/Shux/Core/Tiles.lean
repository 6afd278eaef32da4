/-
# Panes tile the viewport

A split gives its first half the rounded share of the cells, its second half the rest, and takes
one line of cells between them for the separator. Whatever the tree and the sizes, the panes lie
in the viewport and apart from each other; when no split is without cells to divide, panes and
separators together are the viewport.
-/

import Shux.Core.Layout
import Shux.Lib.Pieces

namespace Shux

open Pieces Rect

variable {R : Type} [F32 R]

/-- A cell of the screen by column and row. -/
def Rect.covers (r : Rect) (cell : Nat × Nat) : Bool :=
  decide (r.x ≤ cell.1 ∧ cell.1 < r.x + r.width ∧ r.y ≤ cell.2 ∧ cell.2 < r.y + r.height)

/-- The cells of a rectangle have coordinates in `u16`. -/
structure Rect.Fits (r : Rect) : Prop where
  width : r.x + r.width ≤ 65536
  height : r.y + r.height ≤ 65536

/-- The rounded share of the first half. -/
def share (total : Nat) (ratio : R) : Nat := F32.roundToU16 (F32.mul (F32.ofU16 total) ratio)

/-- The line of cells between the halves of a split. -/
def separator (viewport : Rect) (dir : Direction) (ratio : R) : Rect :=
  match dir with
  | .vertical =>
    ⟨viewport.x + share (viewport.width - separatorSize) ratio, viewport.y, separatorSize,
      viewport.height⟩
  | .horizontal =>
    ⟨viewport.x, viewport.y + share (viewport.height - separatorSize) ratio, viewport.width,
      separatorSize⟩

/-- The cells a split has along its axis. -/
def Rect.along (viewport : Rect) : Direction → Nat
  | .vertical => viewport.width
  | .horizontal => viewport.height

namespace LayoutNode

variable (t : LayoutNode R)

/-- The separators of a tree, in the order of its splits. -/
def separators (viewport : Rect) : LayoutNode R → List Rect
  | leaf _ => []
  | node dir ratio a b =>
    let rects := splitRect viewport dir ratio
    a.separators rects.1 ++ separator viewport dir ratio :: b.separators rects.2

/-- Every split is given at least one cell along its axis. -/
def Roomy (viewport : Rect) : LayoutNode R → Prop
  | leaf _ => True
  | node dir ratio a b =>
    let rects := splitRect viewport dir ratio
    0 < viewport.along dir ∧ a.Roomy rects.1 ∧ b.Roomy rects.2

/-- No first half is given more than there is. -/
def SharesBounded : LayoutNode R → Prop
  | leaf _ => True
  | node _ ratio a b =>
    (∀ total, total < 65536 → share total ratio ≤ total) ∧ a.SharesBounded ∧ b.SharesBounded

/-- The panes come in the order of the tree. -/
theorem map_fst_computeRects (viewport : Rect) :
    (t.computeRects viewport).map Prod.fst = t.paneIds := by
  induction t generalizing viewport with
  | leaf pane => rfl
  | node dir ratio a b iha ihb => simp [computeRects, paneIds, iha, ihb]

/-- A tree has one separator less than panes. -/
theorem length_separators (viewport : Rect) : (t.separators viewport).length + 1 = t.paneCount := by
  induction t generalizing viewport with
  | leaf pane => rfl
  | node dir ratio a b iha ihb =>
    have ha := iha (splitRect viewport dir ratio).1
    have hb := ihb (splitRect viewport dir ratio).2
    rw [separators, paneCount, List.length_append, List.length_cons]
    omega

/-- A separator is one cell thick. -/
theorem thin_separators (viewport : Rect) :
    ∀ s ∈ t.separators viewport, s.width = 1 ∨ s.height = 1 := by
  induction t generalizing viewport with
  | leaf pane => simp [separators]
  | node dir ratio a b iha ihb =>
    intro s hs
    rw [separators, List.mem_append, List.mem_cons] at hs
    rcases hs with hs | rfl | hs
    · exact iha _ s hs
    · cases dir with
      | horizontal => exact Or.inr rfl
      | vertical => exact Or.inl rfl
    · exact ihb _ s hs

end LayoutNode

section Split

variable {viewport : Rect} {dir : Direction} {ratio : R}

omit [F32 R] in
theorem toNat_covers (r : Rect) (cell : Nat × Nat) :
    (r.covers cell).toNat = if r.x ≤ cell.1 ∧ cell.1 < r.x + r.width ∧ r.y ≤ cell.2 ∧
      cell.2 < r.y + r.height then 1 else 0 := by
  rw [covers]
  split_ifs with h <;> simp [h]

theorem splitRect_vertical (viewport : Rect) (ratio : R) :
    splitRect viewport .vertical ratio =
      (⟨viewport.x, viewport.y, share (viewport.width - 1) ratio, viewport.height⟩,
        ⟨u16Add (u16Add viewport.x (share (viewport.width - 1) ratio)) 1, viewport.y,
          viewport.width - 1 - share (viewport.width - 1) ratio, viewport.height⟩) := rfl

theorem splitRect_horizontal (viewport : Rect) (ratio : R) :
    splitRect viewport .horizontal ratio =
      (⟨viewport.x, viewport.y, viewport.width, share (viewport.height - 1) ratio⟩,
        ⟨viewport.x, u16Add (u16Add viewport.y (share (viewport.height - 1) ratio)) 1,
          viewport.width, viewport.height - 1 - share (viewport.height - 1) ratio⟩) := rfl

/-- The cells of a viewport are those of the first half, of the separator and of the second. -/
theorem covers_splitRect (hfits : viewport.Fits)
    (hshare : ∀ total, total < 65536 → share total ratio ≤ total) (hroom : 0 < viewport.along dir)
    (cell : Nat × Nat) :
    ((splitRect viewport dir ratio).1.covers cell).toNat +
      ((separator viewport dir ratio).covers cell).toNat +
        ((splitRect viewport dir ratio).2.covers cell).toNat = (viewport.covers cell).toNat := by
  obtain ⟨hwidth, hheight⟩ := hfits
  cases dir with
  | vertical =>
    rw [along] at hroom
    have hle := hshare (viewport.width - 1) (by omega)
    simp only [toNat_covers, splitRect_vertical, separator, u16Add, separatorSize]
    generalize share (viewport.width - 1) ratio = a at hle ⊢
    split_ifs <;> omega
  | horizontal =>
    rw [along] at hroom
    have hle := hshare (viewport.height - 1) (by omega)
    simp only [toNat_covers, splitRect_horizontal, separator, u16Add, separatorSize]
    generalize share (viewport.height - 1) ratio = a at hle ⊢
    split_ifs <;> omega

/-- Neither half has cells when the viewport has none along the axis. -/
theorem covers_splitRect_empty
    (hshare : ∀ total, total < 65536 → share total ratio ≤ total) (hroom : viewport.along dir = 0)
    (cell : Nat × Nat) :
    (splitRect viewport dir ratio).1.covers cell = false ∧
      (splitRect viewport dir ratio).2.covers cell = false := by
  have hzero : share 0 ratio = 0 := Nat.le_zero.1 (hshare 0 (by decide))
  cases dir with
  | vertical =>
    rw [along] at hroom
    simp only [splitRect_vertical, hroom, Nat.zero_sub, hzero, covers, decide_eq_false_iff_not]
    omega
  | horizontal =>
    rw [along] at hroom
    simp only [splitRect_horizontal, hroom, Nat.zero_sub, hzero, covers, decide_eq_false_iff_not]
    omega

/-- Both halves have coordinates in `u16` again. -/
theorem fits_splitRect (dir : Direction) (hfits : viewport.Fits)
    (hshare : ∀ total, total < 65536 → share total ratio ≤ total) :
    (splitRect viewport dir ratio).1.Fits ∧ (splitRect viewport dir ratio).2.Fits := by
  obtain ⟨hwidth, hheight⟩ := hfits
  cases dir with
  | vertical =>
    have hle := hshare (viewport.width - 1) (by omega)
    rw [splitRect_vertical]
    generalize share (viewport.width - 1) ratio = a at hle ⊢
    refine ⟨⟨?_, ?_⟩, ⟨?_, ?_⟩⟩ <;> simp only [u16Add] <;> omega
  | horizontal =>
    have hle := hshare (viewport.height - 1) (by omega)
    rw [splitRect_horizontal]
    generalize share (viewport.height - 1) ratio = a at hle ⊢
    refine ⟨⟨?_, ?_⟩, ⟨?_, ?_⟩⟩ <;> simp only [u16Add] <;> omega

/-- The two halves do not overlap and lie in the viewport. -/
theorem covers_halves_le (hfits : viewport.Fits)
    (hshare : ∀ total, total < 65536 → share total ratio ≤ total) (cell : Nat × Nat) :
    ((splitRect viewport dir ratio).1.covers cell).toNat +
      ((splitRect viewport dir ratio).2.covers cell).toNat ≤ (viewport.covers cell).toNat := by
  rcases Nat.eq_zero_or_pos (viewport.along dir) with hroom | hroom
  · obtain ⟨hfirst, hsecond⟩ := covers_splitRect_empty hshare hroom cell
    rw [hfirst, hsecond]
    exact Nat.zero_le _
  · have hcut := covers_splitRect hfits hshare hroom cell
    omega

end Split

namespace LayoutNode

/-- The rectangles of the panes. -/
def rects (t : LayoutNode R) (viewport : Rect) : List Rect := (t.computeRects viewport).map Prod.snd

theorem rects_node (dir : Direction) (ratio : R) (a b : LayoutNode R) (viewport : Rect) :
    (node dir ratio a b).rects viewport = a.rects (splitRect viewport dir ratio).1 ++
      b.rects (splitRect viewport dir ratio).2 := by
  simp [rects, computeRects]

/-- The panes lie in the viewport, apart from each other. -/
theorem packs_rects {t : LayoutNode R} (hshares : t.SharesBounded) {viewport : Rect}
    (hfits : viewport.Fits) : Packs covers (t.rects viewport) viewport.covers := by
  induction t generalizing viewport with
  | leaf pane => exact (tiles_singleton viewport).packs
  | node dir ratio a b iha ihb =>
    obtain ⟨hshare, ha, hb⟩ := hshares
    obtain ⟨hfitsA, hfitsB⟩ := fits_splitRect dir hfits hshare
    rw [rects_node]
    exact (iha ha hfitsA).append (ihb hb hfitsB) (covers_halves_le hfits hshare)

/-- Panes and separators make up the viewport. -/
theorem tiles_rects {t : LayoutNode R} (hshares : t.SharesBounded) {viewport : Rect}
    (hfits : viewport.Fits) (hroomy : t.Roomy viewport) :
    Tiles covers (t.rects viewport ++ t.separators viewport) viewport.covers := by
  induction t generalizing viewport with
  | leaf pane => exact tiles_singleton viewport
  | node dir ratio a b iha ihb =>
    obtain ⟨hshare, ha, hb⟩ := hshares
    obtain ⟨hroom, hroomA, hroomB⟩ := hroomy
    obtain ⟨hfitsA, hfitsB⟩ := fits_splitRect dir hfits hshare
    have htiles := (iha ha hfitsA hroomA).append (ihb hb hfitsB hroomB)
      (covers_splitRect hfits hshare hroom)
    refine htiles.perm ?_
    rw [rects_node, separators]
    simp only [List.append_assoc]
    refine List.Perm.append_left _ ?_
    rw [← List.append_assoc]
    refine (List.perm_append_comm.append_right _).trans ?_
    rw [List.append_assoc]
    exact List.perm_middle.append_left _

/-- A viewport on the screen is divided among the panes of a tree, in the order of the tree: no
two overlap and none leaves the viewport. When no split is without cells along its axis, the
panes and one thin separator for each split are all of the viewport. -/
theorem computeRects_tiles (t : LayoutNode R) (hshares : t.SharesBounded) (viewport : Rect)
    (hfits : viewport.Fits) :
    (t.computeRects viewport).map Prod.fst = t.paneIds ∧
    (t.rects viewport).Pairwise (Apart covers) ∧
    (∀ r ∈ t.rects viewport, ∀ cell, r.covers cell = true → viewport.covers cell = true) ∧
    (t.Roomy viewport →
      (t.separators viewport).length + 1 = t.paneCount ∧
      (∀ s ∈ t.separators viewport, s.width = 1 ∨ s.height = 1) ∧
      (t.rects viewport ++ t.separators viewport).Pairwise (Apart covers) ∧
      ∀ cell, viewport.covers cell = true ↔
        ∃ piece ∈ t.rects viewport ++ t.separators viewport, piece.covers cell = true) := by
  have hpacks := packs_rects hshares hfits
  refine ⟨t.map_fst_computeRects viewport, hpacks.pairwise, fun r hr cell => hpacks.mem hr, ?_⟩
  intro hroomy
  have htiles := tiles_rects hshares hfits hroomy
  exact ⟨t.length_separators viewport, t.thin_separators viewport, htiles.packs.pairwise,
    htiles.mem_iff⟩

end LayoutNode

theorem share_le_total {ratio : ℚ} (h : ratio ≤ 1) (total : Nat) : share total ratio ≤ total := by
  have hmul : (total : ℚ) * ratio ≤ total := mul_le_of_le_one_right (Nat.cast_nonneg _) h
  have hfloor : ((total : ℚ) * ratio + 1 / 2).floor < (total : ℤ) + 1 := by
    rw [Rat.floor_lt_iff]
    push_cast
    linarith
  simp only [share, F32.roundToU16, F32.mul, F32.ofU16]
  omega

namespace Sample

/-- Three panes, the second half of the screen split again. -/
def panes : LayoutNode ℚ :=
  .node .vertical (1 / 2) (.leaf ⟨⟨1⟩⟩) (.node .horizontal (1 / 4) (.leaf ⟨⟨2⟩⟩) (.leaf ⟨⟨3⟩⟩))

theorem sharesBounded_panes : panes.SharesBounded := by
  refine ⟨fun total _ => share_le_total (by norm_num) total, trivial, ?_, trivial, trivial⟩
  exact fun total _ => share_le_total (by norm_num) total

theorem computeRects_tiles_panes :
    let viewport : Rect := ⟨0, 0, 80, 24⟩
    panes.Roomy viewport ∧ (panes.rects viewport).Pairwise (Apart covers) ∧
      (panes.rects viewport ++ panes.separators viewport).Pairwise (Apart covers) := by
  have hroomy : panes.Roomy ⟨0, 0, 80, 24⟩ := by
    refine ⟨by decide, trivial, ?_, trivial, trivial⟩
    decide
  have htiles := LayoutNode.computeRects_tiles panes sharesBounded_panes ⟨0, 0, 80, 24⟩
    ⟨by decide, by decide⟩
  exact ⟨hroomy, htiles.2.1, (htiles.2.2.2 hroomy).2.2.1⟩

/-- At the far edge of the coordinates the second half comes out at column 0. -/
theorem computeRects_wraps :
    let viewport : Rect := ⟨65530, 0, 10, 24⟩
    panes.SharesBounded ∧ panes.Roomy viewport ∧
      ∃ r ∈ panes.rects viewport, ∃ cell, r.covers cell = true ∧ viewport.covers cell = false := by
  refine ⟨sharesBounded_panes, ⟨by decide, trivial, ?_, trivial, trivial⟩, ⟨0, 0, 4, 6⟩, ?_, (0, 0),
    by decide, by decide⟩
  · decide
  · with_unfolding_all decide

end Sample

end Shux
