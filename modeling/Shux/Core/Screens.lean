/-
# What the windows show

Along a run every window divides its part of the screen among the panes it shows.
-/

import Shux.Core.Focus
import Shux.Core.Tiles

namespace Shux

open Pieces Rect LayoutNode

variable {R : Type} [F32 R]

/-- The panes of a window that no zoom hides come once each, the focused one among them. They lie
in the viewport apart from each other, and where every split has room they and the separators are
all of it. -/
structure Screened (s : SessionGraphSnapshot R) (wid : WindowId) (w : Window R)
    (viewport : Rect) : Prop where
  once : ((w.layout.tree.computeRects viewport).map Prod.fst).Nodup
  panes : ∀ pid, pid ∈ (w.layout.tree.computeRects viewport).map Prod.fst ↔
    Houses s wid pid ∧ ∀ zoom, w.layout.zoom = some zoom → pid = zoom.zoomedPane
  focus : w.activePane ∈ (w.layout.tree.computeRects viewport).map Prod.fst
  apart : Packs covers (w.layout.tree.rects viewport) viewport.covers
  fills : w.layout.tree.Roomy viewport → Tiles covers
    (w.layout.tree.rects viewport ++ w.layout.tree.separators viewport) viewport.covers

/-- A share of a clamped ratio is no more than the whole. -/
def SharesFit (R : Type) [F32 R] : Prop :=
  ∀ (ratio : R) (total : Nat), clampRatio ratio = ratio → total < 65536 → share total ratio ≤ total

theorem LayoutNode.Settled.sharesBounded {t : LayoutNode R} (h : t.Settled)
    (hshare : SharesFit R) : t.SharesBounded := by
  induction t with
  | leaf pane => trivial
  | node dir ratio a b iha ihb =>
    obtain ⟨hratio, ha, hb⟩ := h
    exact ⟨fun total => hshare ratio total hratio, iha ha, ihb hb⟩

theorem WindowTiled.screened {s : SessionGraphSnapshot R} {wid : WindowId} {w : Window R}
    (h : WindowTiled s wid w) (hzoom : ZoomShows w) (hshares : w.layout.full.SharesBounded)
    {viewport : Rect} (hfits : viewport.Fits) : Screened s wid w viewport := by
  have htree : w.layout.tree.SharesBounded ∧ w.layout.tree.paneIds.Nodup := by
    cases hz : w.layout.zoom with
    | none =>
      rw [← WindowLayout.full_of_unzoomed hz]
      exact ⟨hshares, h.layout.nodup⟩
    | some zoom =>
      rw [(h.layout.shown zoom hz).1]
      exact ⟨trivial, List.nodup_singleton _⟩
  have hpanes : ∀ pid, pid ∈ w.layout.tree.paneIds ↔
      Houses s wid pid ∧ ∀ zoom, w.layout.zoom = some zoom → pid = zoom.zoomedPane := fun pid =>
    ⟨fun hmem => ⟨h.houses_of_shown hmem, (h.shown_iff (h.houses_of_shown hmem)).mp hmem⟩,
      fun hshown => (h.shown_iff hshown.1).mpr hshown.2⟩
  refine ⟨?_, ?_, ?_, packs_rects htree.1 hfits, tiles_rects htree.1 hfits⟩
  · rw [map_fst_computeRects]
    exact htree.2
  · rwa [map_fst_computeRects]
  · rw [map_fst_computeRects, hpanes]
    refine ⟨(h.leaves _).mp h.active_pane, fun zoom hz => hzoom.active _ ?_⟩
    simp [zoomedPane, hz]

/-- After any commands but bare pane creations, answered or refused, every window has its part of
the screen divided among its panes. -/
theorem run_screened [Host] [LawfulF32 R] (hshare : SharesFit R) (cmds : List (GraphCommand R))
    (hbare : ∀ cmd ∈ cmds, cmd.isBare = false) {viewport : Rect} (hfits : viewport.Fits) :
    let s := (SessionGraph.newWithEventBus.run cmds).state
    ∀ wid w, s.windows.get wid = some w → Screened s wid w viewport := by
  intro s wid w hw
  have horderly := orderly_new.run cmds hbare
  exact (horderly.tiled wid w hw).screened (horderly.focus wid w hw)
    ((horderly.settled wid w hw).sharesBounded hshare) hfits

open Sample in
/-- Two panes side by side on a screen of 80 columns. -/
theorem run_screened_split :
    let s := (SessionGraph.newWithEventBus.run
      [create, .splitPane ⟨⟨1⟩⟩ .vertical (1 / 2) []]).state
    ∀ wid w, s.windows.get wid = some w → Screened s wid w ⟨0, 0, 80, 24⟩ := by
  have hshare : SharesFit ℚ := fun ratio total hratio _ => by
    refine share_le_total ?_ total
    simp only [clampRatio, F32.lt, F32.minRatio, F32.maxRatio, decide_eq_true_eq] at hratio
    split_ifs at hratio <;> linarith
  exact run_screened hshare _ (by decide) ⟨by decide, by decide⟩

end Shux
