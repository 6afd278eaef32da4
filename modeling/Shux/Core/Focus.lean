/-
# The focus is never hidden

A zoomed window shows one pane, and input goes to the focused one. Zooming focuses the pane it
shows, focusing a pane behind a zoom takes the zoom away, and so does everything that changes
the tree. So in every window a zoom shows the focused pane, and only a window of two panes or
more is ever zoomed.

Beside it stands what else a tree keeps of its own accord: the ratios of its splits are within
their bounds.
-/

import Shux.Core.Tiling
import Shux.Core.Versions

namespace Shux

open WindowLayout F32

variable {R : Type}
variable {wid : WindowId} {layout : WindowLayout R}
variable {panes : FinMap PaneId Pane} {active pane : PaneId}

/-- A zoom shows the focused pane, and hides another one. -/
structure ZoomShows (w : Window R) : Prop where
  active : ∀ zoomed, zoomedPane w.layout = some zoomed → w.activePane = zoomed
  hides : (zoomedPane w.layout).isSome → 1 < w.layout.full.paneCount

def FocusShown (s : SessionGraphSnapshot R) : Prop :=
  ∀ wid w, s.windows.get wid = some w → ZoomShows w

variable {s s' : SessionGraphSnapshot R}

theorem ZoomShows.of_unzoomed {w : Window R} (h : w.layout.zoom = none) : ZoomShows w := by
  refine ⟨fun zoomed hzoomed => ?_, fun hsome => ?_⟩
  · simp [zoomedPane, h] at hzoomed
  · simp [zoomedPane, h] at hsome

theorem ZoomShows.of_same {w w' : Window R} (h : ZoomShows w) (hlayout : w'.layout = w.layout)
    (hactive : w'.activePane = w.activePane) : ZoomShows w' := by
  refine ⟨?_, ?_⟩
  · rw [hlayout, hactive]
    exact h.active
  · rw [hlayout]
    exact h.hides

/-- Only a tree of two panes or more can be zoomed. -/
theorem one_lt_paneCount_toggleZoom (h : (zoomedPane (layout.toggleZoom pane)).isSome) :
    1 < (layout.toggleZoom pane).full.paneCount := by
  rw [full_toggleZoom]
  rw [toggleZoom_eq] at h
  split_ifs at h with hsame
  · simp [zoomedPane] at h
  · rw [zoomIn] at h
    split_ifs at h with hin
    · rw [Bool.and_eq_true, decide_eq_true_eq] at hin
      exact hin.2
    · simp [zoomedPane] at h

/-- Replacing the layout and the focus of one window. -/
theorem FocusShown.relayout (h : FocusShown s) (hnew : ∀ w, s.windows.get wid = some w →
      ZoomShows { w with layout := layout, activePane := active, version := w.version + 1 }) :
    FocusShown (s.relayout wid layout active panes) := by
  intro k w hw
  simp only [SessionGraphSnapshot.relayout, FinMap.get_modify] at hw
  split_ifs at hw with hk
  · obtain ⟨w₀, hw₀, rfl⟩ := Option.map_eq_some_iff.mp hw
    rw [hk] at hw₀
    exact hnew w₀ hw₀
  · exact h k w hw

theorem FocusShown.insert (h : FocusShown s) {sid : SessionId} {title : Str}
    (hs' : s'.windows = s.windows.insert wid (.new wid sid title pane)) :
    FocusShown s' := by
  unfold FocusShown
  rw [hs']
  exact FinMap.forall_insert (.of_unzoomed rfl) h

theorem FocusShown.of_gone (h : FocusShown s) {gone : List WindowId}
    (hgone : WindowsGone gone s s') : FocusShown s' :=
  fun wid w hw => h wid w ((hgone.windows wid w).mp hw).1

variable [F32 R]

theorem LayoutMove.zoomShows {window : Window R}
    (h : LayoutMove s wid window layout active) (hwas : ZoomShows window)
    (w : Window R) :
    ZoomShows { w with layout := layout, activePane := active, version := w.version + 1 } := by
  cases h with
  | @focus id pane layout hpane hhome hlayout hshown =>
    refine ⟨hshown, fun hsome => ?_⟩
    rcases hlayout with rfl | ⟨zoomed, -, rfl⟩
    · exact hwas.hides hsome
    · exact one_lt_paneCount_toggleZoom hsome
  | resize htree => exact .of_unzoomed rfl
  | swap htree => exact .of_unzoomed rfl
  | @zoom id active hactive hshown => exact ⟨hshown, one_lt_paneCount_toggleZoom⟩

/-- Every effect keeps the focus in sight. -/
theorem Effect.focusShown [Host] {kinds : Set Kind} {lo hi : Nat} {evs : List EventData}
    (h : Effect kinds lo hi s s' evs) (hlinked : Linked s) (hfocus : FocusShown s) :
    FocusShown s' := by
  cases h with
  | addSession hkind h =>
    cases h with
    | intro => exact hfocus.insert rfl
  | addWindow hkind h =>
    cases h with
    | intro => exact hfocus.insert rfl
  | addPane hkind h =>
    cases h with
    | intro => exact hfocus
  | splitPane hkind h =>
    cases h with
    | intro => exact hfocus.relayout fun _ _ => .of_unzoomed rfl
  | removeSession hkind h =>
    obtain ⟨session, -, hgone, -⟩ := hlinked.gone_of_removesSession h
    exact hfocus.of_gone hgone
  | removeWindow hkind h => exact hfocus.of_gone (hlinked.gone_of_removesWindow h)
  | removePane hkind h =>
    cases h with
    | intro =>
      refine hfocus.relayout fun _ _ => .of_unzoomed ?_
      rw [removePane_fst]
  | editSession hkind hsession h => exact hfocus
  | @renameWindow wid _ _ hkind h =>
    cases h with
    | intro =>
      intro k w hw
      rw [SessionGraphSnapshot.editWindow, FinMap.get_modify] at hw
      split_ifs at hw with hk
      · obtain ⟨w₀, hw₀, rfl⟩ := Option.map_eq_some_iff.mp hw
        exact (hfocus k w₀ hw₀).of_same rfl rfl
      · exact hfocus k w hw
  | editPane hkind hpane hkeeps hevs => exact hfocus
  | relayout hkind h =>
    cases h with
    | intro hwindow hmove hpanes hnotice =>
      exact hfocus.relayout fun w _ => hmove.zoomShows (hfocus _ _ hwindow) w

/-! ## Settled ratios

Every split is built with its ratio clamped, and rebuilt with it clamped again whenever the tree
changes above it. That does nothing the second time, so a subtree that is put back is the same.
-/

/-- What the clamping of ratios relies on: the bounds are in order. -/
class LawfulF32 (R : Type) [F32 R] : Prop where
  not_maxRatio_lt_minRatio : lt (maxRatio : R) minRatio = false
  not_maxRatio_lt_self : lt (maxRatio : R) maxRatio = false

instance : LawfulF32 ℚ where
  not_maxRatio_lt_minRatio := by simp [lt, maxRatio, minRatio]; norm_num
  not_maxRatio_lt_self := by simp [lt]

namespace LayoutNode

variable {target : PaneId}

/-- Clamping changes no ratio of the tree. -/
def Settled : LayoutNode R → Prop
  | leaf _ => True
  | node _ ratio a b => clampRatio ratio = ratio ∧ a.Settled ∧ b.Settled

variable [LawfulF32 R]

theorem clampRatio_clampRatio (ratio : R) : clampRatio (clampRatio ratio) = clampRatio ratio := by
  have hbounds := LawfulF32.not_maxRatio_lt_minRatio (R := R)
  have hmax := LawfulF32.not_maxRatio_lt_self (R := R)
  by_cases hlow : lt ratio (minRatio : R) = true
  · simp [clampRatio, hlow, hbounds]
  · by_cases hhigh : lt (maxRatio : R) ratio = true
    · simp [clampRatio, hlow, hhigh, hbounds, hmax]
    · simp [clampRatio, hlow, hhigh]

theorem Settled.split {a b : LayoutNode R} (ha : a.Settled) (hb : b.Settled) (dir : Direction)
    (ratio : R) : (split dir ratio a b).Settled :=
  ⟨clampRatio_clampRatio ratio, ha, hb⟩

variable {t t' : LayoutNode R}

theorem Settled.splitPane (ht : t.Settled) {new : PaneId}
    {dir : Direction} {ratio : R} (h : t.splitPane target new dir ratio = some t') :
    t'.Settled := by
  induction t generalizing t' with
  | leaf pane =>
    rw [LayoutNode.splitPane] at h
    split_ifs at h with hpane
    cases h
    exact Settled.split (a := leaf target) (b := leaf new) trivial trivial dir ratio
  | node d r a b iha ihb =>
    rw [LayoutNode.splitPane] at h
    split at h
    · rename_i newA hnewA
      cases h
      exact (iha ht.2.1 hnewA).split ht.2.2 d r
    · obtain ⟨newB, hnewB, rfl⟩ := Option.map_eq_some_iff.mp h
      exact Settled.split ht.2.1 (ihb ht.2.2 hnewB) d r

theorem Settled.removePane (ht : t.Settled) (h : t.removePane target = some t') : t'.Settled := by
  induction t generalizing t' with
  | leaf pane => cases h
  | node d r a b iha ihb =>
    rw [LayoutNode.removePane] at h
    split_ifs at h
    · cases h
      exact ht.2.2
    · cases h
      exact ht.2.1
    · obtain ⟨newA, hnewA, rfl⟩ := Option.map_eq_some_iff.mp h
      exact (iha ht.2.1 hnewA).split ht.2.2 d r
    · obtain ⟨newB, hnewB, rfl⟩ := Option.map_eq_some_iff.mp h
      exact Settled.split ht.2.1 (ihb ht.2.2 hnewB) d r

theorem Settled.resizePane (ht : t.Settled)
    {dir : Direction} {delta : R} (h : t.resizePane target dir delta = some t') : t'.Settled := by
  induction t generalizing t' with
  | leaf pane => cases h
  | node d r a b iha ihb =>
    simp only [LayoutNode.resizePane] at h
    split_ifs at h
    · cases h
      exact Settled.split ht.2.1 ht.2.2 d _
    · cases h
      exact Settled.split ht.2.1 ht.2.2 d _
    · obtain ⟨newA, hnewA, rfl⟩ := Option.map_eq_some_iff.mp h
      exact (iha ht.2.1 hnewA).split ht.2.2 d r
    · obtain ⟨newB, hnewB, rfl⟩ := Option.map_eq_some_iff.mp h
      exact Settled.split ht.2.1 (ihb ht.2.2 hnewB) d r

theorem Settled.swapPanes {a b : PaneId} (h : t.swapPanes a b = some t') :
    t'.Settled := by
  have hinner : ∀ t : LayoutNode R, (t.swapInner a b).Settled := by
    intro t
    induction t with
    | leaf pane =>
      rw [swapInner]
      split_ifs
      all_goals trivial
    | node d r x y ihx ihy => exact ihx.split ihy d r
  rw [LayoutNode.swapPanes] at h
  split_ifs at h
  cases h
  exact hinner t

end LayoutNode

/-- Removing the pane a split added gives the tree back. -/
theorem LayoutNode.removePane_splitPane {t t' : LayoutNode R} (ht : t.Settled)
    {target new : PaneId} (hnew : new ∉ t.paneIds) {dir : Direction} {ratio : R}
    (h : t.splitPane target new dir ratio = some t') : t'.removePane new = some t := by
  have hmem : ∀ {u u' : LayoutNode R}, u.splitPane target new dir ratio = some u' →
      new ∈ u'.paneIds :=
    fun hu => (paneIds_splitPane hu).mem_iff.mpr List.mem_cons_self
  have hnode : ∀ {u u' : LayoutNode R}, u.splitPane target new dir ratio = some u' →
      u'.paneId = none := by
    intro u u' hu
    cases u with
    | leaf pane =>
      rw [LayoutNode.splitPane] at hu
      split_ifs at hu
      cases hu
      rfl
    | node d r a b =>
      rw [LayoutNode.splitPane] at hu
      split at hu
      · cases hu
        rfl
      · obtain ⟨newB, -, rfl⟩ := Option.map_eq_some_iff.mp hu
        rfl
  have hleaf : ∀ {u : LayoutNode R}, new ∉ u.paneIds → u.paneId ≠ some new := by
    intro u hu heq
    rw [eq_leaf_of_paneId heq] at hu
    exact hu (List.mem_singleton_self new)
  induction t generalizing t' with
  | leaf pane =>
    rw [LayoutNode.splitPane] at h
    split_ifs at h with hpane
    cases h
    subst hpane
    have hne : pane ≠ new := fun heq => hnew (heq ▸ List.mem_singleton_self pane)
    simp [LayoutNode.split, LayoutNode.removePane, LayoutNode.paneId, hne]
  | node d r a b iha ihb =>
    obtain ⟨hr, ha, hb⟩ := ht
    rw [LayoutNode.paneIds, List.mem_append, not_or] at hnew
    rw [LayoutNode.splitPane] at h
    split at h
    · rename_i newA hnewA
      cases h
      rw [LayoutNode.split, LayoutNode.removePane, hnode hnewA, if_neg (by simp),
        if_neg (hleaf hnew.2), if_pos ((containsPane_iff _ _).mpr (hmem hnewA)),
        iha ha hnew.1 hnewA, Option.map_some, LayoutNode.split, hr, hr]
    · obtain ⟨newB, hnewB, rfl⟩ := Option.map_eq_some_iff.mp h
      have hnot : ¬a.containsPane new = true := fun hin => hnew.1 ((containsPane_iff _ _).mp hin)
      rw [LayoutNode.split, LayoutNode.removePane, if_neg (hleaf hnew.1), hnode hnewB,
        if_neg (by simp), if_neg hnot, if_pos ((containsPane_iff _ _).mpr (hmem hnewB)),
        ihb hb hnew.2 hnewB, Option.map_some, LayoutNode.split, hr, hr]

/-- The full trees of all windows are settled. -/
def RatiosSettled (s : SessionGraphSnapshot R) : Prop :=
  ∀ wid w, s.windows.get wid = some w → w.layout.full.Settled

theorem RatiosSettled.relayout (h : RatiosSettled s) {w : Window R}
    (hw : s.windows.get wid = some w) (hnew : w.layout.full.Settled → layout.full.Settled) :
    RatiosSettled (s.relayout wid layout active panes) := by
  intro k w' hw'
  simp only [SessionGraphSnapshot.relayout, FinMap.get_modify] at hw'
  split_ifs at hw' with hk
  · obtain ⟨w₀, -, rfl⟩ := Option.map_eq_some_iff.mp hw'
    exact hnew (h wid w hw)
  · exact h k w' hw'

theorem RatiosSettled.insert (h : RatiosSettled s) {sid : SessionId} {title : Str}
    (hs' : s'.windows = s.windows.insert wid (.new wid sid title pane)) : RatiosSettled s' := by
  unfold RatiosSettled
  rw [hs']
  exact FinMap.forall_insert trivial h

section Settling

variable [LawfulF32 R]

theorem LayoutMove.settled {window : Window R} (h : LayoutMove s wid window layout active)
    (hwas : window.layout.full.Settled) : layout.full.Settled := by
  cases h with
  | @focus id pane layout hpane hhome hlayout hshown =>
    rcases hlayout with rfl | ⟨zoomed, -, rfl⟩
    · exact hwas
    · rwa [full_toggleZoom]
  | resize htree => exact hwas.resizePane htree
  | swap htree => exact LayoutNode.Settled.swapPanes htree
  | zoom hactive hshown => rwa [full_toggleZoom]

theorem Effect.settled [Host] {kinds : Set Kind} {lo hi : Nat} {evs : List EventData}
    (h : Effect kinds lo hi s s' evs) (hlinked : Linked s) (hsettled : RatiosSettled s) :
    RatiosSettled s' := by
  cases h with
  | addSession hkind h =>
    cases h with
    | intro => exact hsettled.insert rfl
  | addWindow hkind h =>
    cases h with
    | intro => exact hsettled.insert rfl
  | addPane hkind h =>
    cases h with
    | intro => exact hsettled
  | splitPane hkind h =>
    cases h with
    | intro hpid hpane hwindow hcapacity htree =>
      exact hsettled.relayout hwindow fun hwas => hwas.splitPane htree
  | removeSession hkind h =>
    obtain ⟨session, -, hgone, -⟩ := hlinked.gone_of_removesSession h
    exact fun wid w hw => hsettled wid w ((hgone.windows wid w).mp hw).1
  | removeWindow hkind h =>
    have hgone := hlinked.gone_of_removesWindow h
    exact fun wid w hw => hsettled wid w ((hgone.windows wid w).mp hw).1
  | @removePane pid _ _ hkind h =>
    cases h with
    | @intro pane window listed active hpane hmore hwindow hactive =>
      refine hsettled.relayout hwindow fun hwas => ?_
      rw [removePane_fst, full_of_unzoomed rfl]
      cases htree : window.layout.full.removePane pid with
      | none => exact hwas
      | some tree => exact hwas.removePane htree
  | editSession hkind hsession h => exact hsettled
  | @renameWindow wid _ _ hkind h =>
    cases h with
    | intro =>
      intro k w hw
      rw [SessionGraphSnapshot.editWindow, FinMap.get_modify] at hw
      split_ifs at hw with hk
      · obtain ⟨w₀, hw₀, rfl⟩ := Option.map_eq_some_iff.mp hw
        exact hsettled k w₀ hw₀
      · exact hsettled k w hw
  | editPane hkind hpane hkeeps hevs => exact hsettled
  | relayout hkind h =>
    cases h with
    | intro hwindow hmove hpanes hnotice => exact hsettled.relayout hwindow hmove.settled

end Settling

section Orderly

variable [Host]
variable {g : SessionGraph R}

/-- What holds of a graph that was not given bare panes. -/
structure Orderly (g : SessionGraph R) : Prop where
  sound : Sound g.drawn g.state
  tiled : Tiled g.state
  focus : FocusShown g.state
  settled : RatiosSettled g.state

theorem Orderly.linked (h : Orderly g) : Linked g.state := h.sound.linked

/-- Commands but bare creations are of the kinds that keep a graph orderly. -/
theorem run_moves_tiled (g : SessionGraph R) (cmds : List (GraphCommand R))
    (hbare : ∀ cmd ∈ cmds, cmd.isBare = false) : Moves {k | k ≠ .addPane} g (g.run cmds) := by
  refine run_moves g cmds ?_
  rintro cmd hmem k hk rfl
  have htrue := GraphCommand.isBare_of_mem_kinds hk
  rw [hbare cmd hmem] at htrue
  cases htrue

theorem orderly_new : Orderly (.newWithEventBus : SessionGraph R) :=
  ⟨sound_default, fun _ _ h => (by cases h), fun _ _ h => (by cases h), fun _ _ h => (by cases h)⟩

variable [LawfulF32 R]

theorem Orderly.moves {kinds : Set Kind} {g' : SessionGraph R} (h : Orderly g)
    (hmoves : Moves kinds g g') (hbare : .addPane ∉ kinds) : Orderly g' := by
  obtain ⟨n, evs, hadvances⟩ := hmoves
  have hall := hadvances.trace.invariant
    (fun n s => Sound n s ∧ Tiled s ∧ FocusShown s ∧ RatiosSettled s) ?_ ?_
    ⟨h.sound, h.tiled, h.focus, h.settled⟩
  · exact ⟨hall.1, hall.2.1, hall.2.2.1, hall.2.2.2⟩
  · rintro lo hi s hle ⟨hs, hinv⟩
    exact ⟨⟨hs.drawn.mono hle, hs.linked⟩, hinv⟩
  · rintro lo hi s s' evs hle heffect ⟨hs, ht, hf, hr⟩
    exact ⟨heffect.sound hle hs, heffect.tiled hbare hs.drawn hs.linked ht,
      heffect.focusShown hs.linked hf, heffect.settled hs.linked hr⟩

theorem Orderly.run (h : Orderly g) (cmds : List (GraphCommand R))
    (hbare : ∀ cmd ∈ cmds, cmd.isBare = false) : Orderly (g.run cmds) :=
  h.moves (run_moves_tiled g cmds hbare) fun hmem => hmem rfl

end Orderly

end Shux
