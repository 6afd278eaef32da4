/-
# Layout edits lose no pane

Splitting a pane adds one split around it, and removing the new pane takes that split away again.
Removing a pane takes away the split nearest to it and no other, its sibling coming in its place.
Swapping exchanges two leaves and leaves the shape alone. A zoom hides the tree and keeps it:
whatever moves the layout of a window, the panes behind its zoom stay the same.
-/

import Shux.Core.Nearest
import Shux.Core.Tiles

namespace Shux

open WindowLayout

variable {R : Type}

namespace LayoutNode

variable {t : LayoutNode R}

/-- The same shape with other panes in its leaves. -/
def relabel (f : PaneId → PaneId) : LayoutNode R → LayoutNode R
  | leaf pane => leaf (f pane)
  | node dir ratio a b => node dir ratio (a.relabel f) (b.relabel f)

theorem relabel_of_involutive {f : PaneId → PaneId} (h : ∀ pane, f (f pane) = pane)
    (t : LayoutNode R) : (t.relabel f).relabel f = t := by
  induction t with
  | leaf pane => rw [relabel, relabel, h]
  | node dir ratio a b iha ihb => rw [relabel, relabel, iha, ihb]

theorem containsPane_eq_false {p : PaneId} (h : p ∉ t.paneIds) : t.containsPane p = false := by
  rw [← Bool.not_eq_true, containsPane_iff]
  exact h

theorem paneId_ne_of_not_mem {p : PaneId} (h : p ∉ t.paneIds) : t.paneId ≠ some p := by
  intro hleaf
  rw [eq_leaf_of_paneId hleaf] at h
  simp [paneIds] at h

variable [F32 R]

/-- Removing a pane takes the last of the splits around it away. -/
theorem removePane_eq_fill (ht : t.Settled) (hnodup : t.paneIds.Nodup)
    {target : PaneId} (hmem : target ∈ t.paneIds) (hmore : 1 < t.paneIds.length) :
    ∃ frames parent, t.path target = some (frames ++ [parent]) ∧
      t.removePane target = some (fill frames parent.sibling) := by
  induction t with
  | leaf pane => simp [paneIds] at hmore
  | node d r a b iha ihb =>
    obtain ⟨hr, hsettledA, hsettledB⟩ := ht
    rw [paneIds, List.nodup_append'] at hnodup
    obtain ⟨hndA, hndB, hdisj⟩ := hnodup
    by_cases hleafA : a.paneId = some target
    · refine ⟨[], ⟨d, r, true, b⟩, ?_, by simp [removePane, hleafA, fill]⟩
      rw [eq_leaf_of_paneId hleafA]
      simp [path, containsPane]
    · by_cases hinA : target ∈ a.paneIds
      · have hleafB := paneId_ne_of_not_mem fun hB => hdisj hinA hB
        obtain ⟨frames, parent, hpath, hremove⟩ :=
          iha hsettledA hndA hinA (one_lt_length_of_mem hinA hleafA)
        rw [← containsPane_iff] at hinA
        refine ⟨⟨d, r, true, b⟩ :: frames, parent, by simp [path, hinA, hpath], ?_⟩
        simp [removePane, hleafA, hleafB, hinA, hremove, split, hr, fill, Frame.fill]
      · have hinB : target ∈ b.paneIds := (List.mem_append.1 hmem).resolve_left hinA
        have hout := containsPane_eq_false hinA
        by_cases hleafB : b.paneId = some target
        · refine ⟨[], ⟨d, r, false, a⟩, ?_, by simp [removePane, hleafA, hleafB, fill]⟩
          rw [eq_leaf_of_paneId hleafB]
          simp [path, hout]
        · obtain ⟨frames, parent, hpath, hremove⟩ :=
            ihb hsettledB hndB hinB (one_lt_length_of_mem hinB hleafB)
          rw [← containsPane_iff] at hinB
          refine ⟨⟨d, r, false, a⟩ :: frames, parent, by simp [path, hout, hpath], ?_⟩
          simp [removePane, hleafA, hleafB, hout, hinB, hremove, split, hr, fill, Frame.fill]

theorem swapInner_eq_relabel (ht : t.Settled) (a b : PaneId) :
    t.swapInner a b = t.relabel (Equiv.swap a b) := by
  induction t with
  | leaf pane =>
    rw [swapInner, relabel, Equiv.swap_apply_def]
    split_ifs <;> rfl
  | node d r x y ihx ihy =>
    obtain ⟨hr, hx, hy⟩ := ht
    rw [swapInner, split, hr, ihx hx, ihy hy, relabel]

theorem settled_relabel (ht : t.Settled) (f : PaneId → PaneId) : (t.relabel f).Settled := by
  induction t with
  | leaf pane => trivial
  | node d r x y ihx ihy => exact ⟨ht.1, ihx ht.2.1, ihy ht.2.2⟩

/-- Swapping exchanges two leaves, and swapping again puts them back. -/
theorem swapPanes_swapPanes {t' : LayoutNode R} (ht : t.Settled) (hnodup : t.paneIds.Nodup)
    {a b : PaneId} (h : t.swapPanes a b = some t') :
    t' = t.relabel (Equiv.swap a b) ∧ t'.swapPanes a b = some t := by
  have hperm := paneIds_swapPanes hnodup h
  rw [swapPanes] at h
  split_ifs at h with hmissing
  cases h
  have hin : ∀ p, (t.swapInner a b).containsPane p = t.containsPane p := by
    intro p
    rw [Bool.eq_iff_iff, containsPane_iff, containsPane_iff]
    exact hperm.mem_iff
  have hrelabel := swapInner_eq_relabel ht a b
  refine ⟨hrelabel, ?_⟩
  rw [swapPanes, hin, hin, if_neg hmissing, hrelabel, swapInner_eq_relabel (settled_relabel ht _),
    relabel_of_involutive (Equiv.swap_apply_self a b)]

end LayoutNode

theorem WindowLayout.toggleZoom_toggleZoom {layout : WindowLayout R} (h : layout.zoom = none)
    (pane : PaneId) : (layout.toggleZoom pane).toggleZoom pane = layout := by
  obtain ⟨tree, zoom⟩ := layout
  dsimp only at h
  subst h
  by_cases hin : (tree.containsPane pane && tree.paneCount > 1) = true
  · simp only [toggleZoom, zoomIn, if_pos hin, if_true]
  · simp only [toggleZoom, zoomIn, if_neg hin]

section Moves

variable [F32 R] {s s' : SessionGraphSnapshot R}
variable {wid : WindowId}

/-- A layout that moves keeps the panes behind its zoom. -/
theorem LayoutMove.perm {window : Window R} {layout : WindowLayout R}
    {active : PaneId} (h : LayoutMove s wid window layout active)
    (hnodup : window.layout.full.paneIds.Nodup) :
    layout.full.paneIds.Perm window.layout.full.paneIds := by
  cases h with
  | @focus id pane layout hpane hhome hlayout hshown =>
    rcases hlayout with rfl | ⟨zoomed, -, rfl⟩
    · exact .refl _
    · rw [full_toggleZoom]
  | resize htree => rw [full_of_unzoomed rfl, LayoutNode.paneIds_resizePane htree]
  | swap htree => exact LayoutNode.paneIds_swapPanes hnodup htree
  | zoom hactive hshown => rw [full_toggleZoom]

/-- A window with the same panes behind its zoom as the given ones, none twice. -/
def KeepsPanes (wid : WindowId) (panes : List PaneId) (s : SessionGraphSnapshot R) : Prop :=
  ∃ w, s.windows.get wid = some w ∧ w.layout.full.paneIds.Nodup ∧ w.layout.full.paneIds.Perm panes

theorem KeepsPanes.relayouts {moved : WindowId} {panes : List PaneId} {evs : List EventData}
    (h : KeepsPanes wid panes s) (hrelayouts : Relayouts s moved s' evs) :
    KeepsPanes wid panes s' := by
  obtain ⟨w, hw, hnodup, hperm⟩ := h
  cases hrelayouts with
  | @intro window layout active panes focusEvents hwindow hmove hpanes hfocus =>
    rw [KeepsPanes]
    simp only [SessionGraphSnapshot.relayout, FinMap.get_modify]
    by_cases hmoved : wid = moved
    · subst hmoved
      rw [hw] at hwindow
      cases hwindow
      have hsame := hmove.perm hnodup
      refine ⟨_, by rw [if_pos rfl, hw]; rfl, hsame.nodup_iff.2 hnodup, hsame.trans hperm⟩
    · exact ⟨w, by rw [if_neg hmoved, hw], hnodup, hperm⟩

variable [Host]

/-- Along any commands that move layouts, answered or refused. -/
theorem KeepsPanes.run {panes : List PaneId} {g : SessionGraph R}
    (h : KeepsPanes wid panes g.state) {cmds : List (GraphCommand R)}
    (hcmds : ∀ cmd ∈ cmds, cmd.kinds ⊆ {.relayout}) :
    KeepsPanes wid panes (g.run cmds).state := by
  obtain ⟨n, evs, hadvances⟩ := run_moves g cmds hcmds
  refine hadvances.trace.invariant (fun _ s => KeepsPanes wid panes s) (fun _ _ _ _ h => h) ?_ h
  intro lo hi s s' evs _ heffect hkeeps
  cases heffect with
  | relayout hkind hrelayouts => exact hkeeps.relayouts hrelayouts
  | addSession hkind | addWindow hkind | addPane hkind | splitPane hkind | removeSession hkind
  | removeWindow hkind | removePane hkind | editSession hkind | renameWindow hkind => cases hkind
  | editPane hkind =>
    rcases hkind with ⟨hkind, -⟩ | hkind
    · cases hkind
    · cases hkind

end Moves

/-- The edits of a tree touch what they are about and can be taken back. -/
structure EditsBack [F32 R] (t : LayoutNode R) : Prop where
  split : ∀ target ∈ t.paneIds, ∀ new ∉ t.paneIds, ∀ dir ratio, ∃ t',
    t.splitPane target new dir ratio = some t' ∧ t'.removePane new = some t
  /-- The split nearest to a removed pane goes, and all splits around that one stay. -/
  remove : ∀ target ∈ t.paneIds, 1 < t.paneCount → ∃ frames parent,
    t.path target = some (frames ++ [parent]) ∧
      fill (frames ++ [parent]) (.leaf target) = t ∧
      t.removePane target = some (fill frames parent.sibling) ∧
      (fill frames parent.sibling).paneIds = t.paneIds.erase target
  swap : ∀ a ∈ t.paneIds, ∀ b ∈ t.paneIds, ∃ t', t.swapPanes a b = some t' ∧
    t' = t.relabel (Equiv.swap a b) ∧ t'.swapPanes a b = some t

theorem LayoutNode.editsBack [F32 R] [LawfulF32 R] {t : LayoutNode R} (ht : t.Settled)
    (hnodup : t.paneIds.Nodup) : EditsBack t where
  split target htarget new hnew dir ratio := by
    obtain ⟨t', ht'⟩ := Option.isSome_iff_exists.1
      ((splitPane_isSome_iff t target new dir ratio).2 htarget)
    exact ⟨t', ht', removePane_splitPane ht hnew ht'⟩
  remove target htarget hmore := by
    rw [paneCount_eq_length] at hmore
    obtain ⟨frames, parent, hpath, hremove⟩ := removePane_eq_fill ht hnodup htarget hmore
    obtain ⟨t', ht', hids⟩ := paneIds_removePane t hnodup htarget hmore
    rw [hremove] at ht'
    cases ht'
    exact ⟨frames, parent, hpath, fill_path hpath, hremove, hids⟩
  swap a ha b hb := by
    have hswapped : t.swapPanes a b = some (t.swapInner a b) := by
      rw [← containsPane_iff] at ha hb
      simp [swapPanes, ha, hb]
    exact ⟨_, hswapped, swapPanes_swapPanes ht hnodup hswapped⟩

/-- In a tree of distinct panes every edit can be taken back; a zoom taken back gives the layout
as it was; and whatever commands move the layout of a window that has the tree behind its zoom,
the window keeps the panes of the tree and shows them all once it is not zoomed. -/
theorem layout_edits [F32 R] [LawfulF32 R] [Host] (t : LayoutNode R) (ht : t.Settled)
    (hnodup : t.paneIds.Nodup) :
    EditsBack t ∧
    (∀ pane, ((mk t none).toggleZoom pane).toggleZoom pane = ⟨t, none⟩) ∧
    ∀ (g : SessionGraph R) (wid : WindowId) (w : Window R), g.state.windows.get wid = some w →
      w.layout.full = t → ∀ cmds : List (GraphCommand R),
        (∀ cmd ∈ cmds, cmd.kinds ⊆ {.relayout}) →
          ∃ w', (g.run cmds).state.windows.get wid = some w' ∧
            w'.layout.full.paneIds.Perm t.paneIds ∧
            (w'.layout.zoom = none → w'.layout.tree.paneIds.Perm t.paneIds) := by
  refine ⟨LayoutNode.editsBack ht hnodup, toggleZoom_toggleZoom rfl, ?_⟩
  rintro g wid w hw rfl cmds hcmds
  have hstart : KeepsPanes wid w.layout.full.paneIds g.state := ⟨w, hw, hnodup, .refl _⟩
  obtain ⟨w', hw', -, hperm⟩ := hstart.run hcmds
  refine ⟨w', hw', hperm, fun hzoom => ?_⟩
  rwa [full_of_unzoomed hzoom] at hperm

namespace Sample

/-- Three panes, one of them below the split of two others. -/
theorem layout_edits_panes :
    EditsBack panes ∧ ((mk panes none).toggleZoom ⟨⟨2⟩⟩).toggleZoom ⟨⟨2⟩⟩ = ⟨panes, none⟩ := by
  have hsettled : panes.Settled := by
    refine ⟨?_, trivial, ?_, trivial, trivial⟩ <;> with_unfolding_all decide
  have hedits := layout_edits panes hsettled (by decide)
  exact ⟨hedits.1, hedits.2.1 _⟩

end Sample

end Shux
