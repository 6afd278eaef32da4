/-
# Windows and their panes

A window's tree has the window's panes as its leaves, each once, and the focused
pane is one of them. Every effect keeps this but the bare pane creation, which adds
a pane that no tree shows.

With `Linked` this is the structural invariant of the session graph, in every state
that commands other than the bare creation lead to.
-/

import Shux.Core.Structure

namespace Shux

open WindowLayout FinMap LayoutNode

variable {R : Type}
variable {evs : List EventData} {wid : WindowId}
variable {panes : FinMap PaneId Pane} {w : Window R}

/-- A pane that lives in a window. -/
def Houses (s : SessionGraphSnapshot R) (wid : WindowId) (pid : PaneId) : Prop :=
  ∃ p, s.panes.get pid = some p ∧ p.windowId = wid

/-- A window's tree has exactly the window's panes as its leaves, and a zoomed window
shows one of them. -/
structure WindowTiled (s : SessionGraphSnapshot R) (wid : WindowId) (w : Window R) : Prop where
  layout : w.layout.WellFormed
  active_pane : w.activePane ∈ w.layout.full.paneIds
  leaves : ∀ pid, pid ∈ w.layout.full.paneIds ↔ Houses s wid pid

def Tiled (s : SessionGraphSnapshot R) : Prop :=
  ∀ wid w, s.windows.get wid = some w → WindowTiled s wid w

variable {s s' : SessionGraphSnapshot R}

/-- A window whose layout, focus and panes stay. -/
theorem WindowTiled.of_same {w' : Window R} (h : WindowTiled s wid w)
    (hlayout : w'.layout = w.layout) (hactive : w'.activePane = w.activePane)
    (hpanes : ∀ pid, Houses s' wid pid ↔ Houses s wid pid) : WindowTiled s' wid w' where
  layout := by
    rw [hlayout]
    exact h.layout
  active_pane := by
    rw [hlayout, hactive]
    exact h.active_pane
  leaves pid := by rw [hlayout, hpanes, h.leaves]

/-- A window whose tree keeps its leaves and whose focus is among them. -/
theorem WindowTiled.of_leaves {w' : Window R} (h : WindowTiled s wid w)
    (hlayout : w'.layout.WellFormed) (hactive : w'.activePane ∈ w.layout.full.paneIds)
    (hperm : w'.layout.full.paneIds.Perm w.layout.full.paneIds)
    (hpanes : ∀ pid, Houses s' wid pid ↔ Houses s wid pid) : WindowTiled s' wid w' where
  layout := hlayout
  active_pane := hperm.mem_iff.mpr hactive
  leaves pid := by rw [hperm.mem_iff, hpanes, h.leaves]

/-- What a window shows is among its panes. -/
theorem WindowTiled.houses_of_shown
    (h : WindowTiled s wid w) {pane : PaneId} (hpane : pane ∈ w.layout.tree.paneIds) :
    Houses s wid pane := by
  rw [← h.leaves]
  cases hzoom : w.layout.zoom with
  | none => rwa [full_of_unzoomed hzoom]
  | some zoom =>
    obtain ⟨htree, hmem⟩ := h.layout.shown zoom hzoom
    rw [htree] at hpane
    obtain rfl : pane = zoom.zoomedPane := by simpa [paneIds] using hpane
    exact hmem

/-- A pane of a window is shown unless another one is zoomed. -/
theorem WindowTiled.shown_iff
    (h : WindowTiled s wid w) {pane : PaneId} (hpane : Houses s wid pane) :
    pane ∈ w.layout.tree.paneIds ↔ ∀ zoom, w.layout.zoom = some zoom → pane = zoom.zoomedPane := by
  cases hzoom : w.layout.zoom with
  | none =>
    rw [← h.leaves, full_of_unzoomed hzoom] at hpane
    simp [hpane]
  | some zoom =>
    rw [(h.layout.shown zoom hzoom).1]
    simp [paneIds]

/-- A new window of one new pane. -/
theorem Tiled.add_window (h : Tiled s) (hlinked : Linked s) {pid : PaneId}
    {sid : SessionId} {title : Str} {p : Pane} (hwid : s.windows.get wid = none)
    (hpid : s.panes.get pid = none) (hp : p.windowId = wid)
    (hwindows : s'.windows = s.windows.insert wid (.new wid sid title pid))
    (hpanes : s'.panes = s.panes.insert pid p) : Tiled s' := by
  intro k w hw
  rw [hwindows, get_insert] at hw
  split_ifs at hw with hk
  · cases hw
    subst hk
    refine ⟨wellFormed_new pid, List.mem_singleton_self pid, fun pid' => ?_⟩
    show pid' ∈ [pid] ↔ Houses s' k pid'
    rw [List.mem_singleton, Houses, hpanes]
    constructor
    · rintro rfl
      exact ⟨p, get_insert_self _ _ _, hp⟩
    · rintro ⟨q, hq, hqw⟩
      rw [get_insert] at hq
      split_ifs at hq with hpid'
      · exact hpid'
      · obtain ⟨w, hw⟩ := hlinked.pane_window pid' q hq
        rw [hqw, hwid] at hw
        cases hw
  · refine (h k w hw).of_same rfl rfl fun pid' => ?_
    rw [Houses, Houses, hpanes, get_insert]
    by_cases hpid' : pid' = pid
    · simp [hpid', hpid, hp, Ne.symm hk]
    · simp [hpid']

/-- Windows go with their panes. -/
theorem Tiled.remove_windows (h : Tiled s) {gone : List WindowId} (hgone : WindowsGone gone s s') :
    Tiled s' := by
  intro wid w hw
  obtain ⟨hw₀, hstays⟩ := (hgone.windows wid w).mp hw
  refine (h wid w hw₀).of_same rfl rfl fun pid => ?_
  constructor
  · rintro ⟨p, hp, hpw⟩
    exact ⟨p, ((hgone.panes pid p).mp hp).1, hpw⟩
  · rintro ⟨p, hp, rfl⟩
    exact ⟨p, (hgone.panes pid p).mpr ⟨hp, hstays⟩, rfl⟩

/-- One window gets another layout and focus; the other windows keep their panes. -/
theorem Tiled.relayout (h : Tiled s) {window : Window R} {layout : WindowLayout R} {active : PaneId}
    (hwindow : s.windows.get wid = some window)
    (hothers : ∀ k pid, k ≠ wid →
      (Houses (s.relayout wid layout active panes) k pid ↔ Houses s k pid))
    (hself : WindowTiled (s.relayout wid layout active panes) wid
      { window with layout := layout, activePane := active, version := window.version + 1 }) :
    Tiled (s.relayout wid layout active panes) := by
  intro k w hw
  have hget : (s.relayout wid layout active panes).windows.get k =
      if k = wid then (s.windows.get k).map fun w =>
        { w with layout := layout, activePane := active, version := w.version + 1 }
      else s.windows.get k := get_modify _ _ _ _
  rw [hget] at hw
  split_ifs at hw with hk
  · rw [hk, hwindow] at hw
    cases hw
    rw [hk]
    exact hself
  · exact (h k w hw).of_same rfl rfl fun pid => hothers k pid hk

/-- The leaves of a window's tree are the ids of its panes. -/
theorem Tiled.perm_windowPaneIds (h : Tiled s) (hlinked : Linked s)
    (hw : s.windows.get wid = some w) :
    w.layout.full.paneIds.Perm (windowPaneIds s.panes wid) := by
  have htiled := h wid w hw
  rw [List.perm_ext_iff_of_nodup htiled.layout.nodup (hlinked.nodup_windowPaneIds wid)]
  intro pid
  rw [htiled.leaves, hlinked.mem_windowPaneIds, Houses]

variable [F32 R]

theorem Tiled.of_removesPane (h : Tiled s) (hlinked : Linked s) {pid : PaneId}
    (hremoves : RemovesPane s pid s' evs) : Tiled s' := by
  cases hremoves with
  | @intro pane window listed active hpane hmore hwindow hactive =>
    have htiled := h _ window hwindow
    have hmem : pid ∈ window.layout.full.paneIds := (htiled.leaves pid).mpr ⟨pane, hpane, rfl⟩
    have hlen : 1 < window.layout.full.paneIds.length := by
      rw [(h.perm_windowPaneIds hlinked hwindow).length_eq, windowPaneIds, List.length_map]
      exact hmore
    obtain ⟨tree, htree, hids⟩ :=
      window.layout.full.paneIds_removePane htiled.layout.nodup hmem hlen
    have hlayout : (window.layout.removePane pid).1 = ⟨tree, none⟩ := by
      rw [removePane_fst, htree, Option.getD_some]
    rw [hlayout] at hactive ⊢
    have hhouses : ∀ k pid', Houses (s.relayout pane.windowId ⟨tree, none⟩ active
        (s.panes.remove pid)) k pid' ↔ pid' ≠ pid ∧ Houses s k pid' := by
      intro k pid'
      simp only [Houses, SessionGraphSnapshot.relayout, get_remove]
      by_cases hpid : pid' = pid
      · simp [hpid]
      · simp [hpid]
    refine h.relayout hwindow (fun k pid' hk => ?_)
      ⟨.of_unzoomed rfl ?_, ?_, fun pid' => ?_⟩
    · rw [hhouses]
      constructor
      · exact And.right
      · rintro ⟨p, hp, hpk⟩
        refine ⟨?_, p, hp, hpk⟩
        rintro rfl
        rw [hpane] at hp
        cases hp
        exact hk hpk.symm
    · rw [hids]
      exact htiled.layout.nodup.erase pid
    · show active ∈ tree.paneIds
      rw [hactive]
      split_ifs with hfocused
      · obtain ⟨first, rest, heq⟩ := List.exists_cons_of_ne_nil tree.paneIds_ne_nil
        simp [heq]
      · rw [hids, htiled.layout.nodup.mem_erase_iff]
        exact ⟨hfocused, htiled.active_pane⟩
    · show pid' ∈ tree.paneIds ↔ _
      rw [hids, htiled.layout.nodup.mem_erase_iff, hhouses, htiled.leaves]

theorem Tiled.of_splitsPane [Host] {lo hi : Nat} (h : Tiled s) (hdrawn : Drawn lo s)
    {target : PaneId} (hsplits : SplitsPane lo hi s target s' evs) :
    Tiled s' := by
  cases hsplits with
  | @intro pid pane window direction ratio tree cwd command hpid hpane hwindow hcapacity htree =>
    have htiled := h _ window hwindow
    have hnew := hdrawn.get_pane hpid
    have hperm := paneIds_splitPane htree
    have hhouses : ∀ k pid', Houses (s.relayout pane.windowId ⟨tree, none⟩ pid
        (s.panes.insert pid (.withCommand pid pane.windowId cwd command))) k pid' ↔
        (pid' = pid ∧ k = pane.windowId) ∨ Houses s k pid' := by
      intro k pid'
      simp only [Houses, SessionGraphSnapshot.relayout, get_insert]
      by_cases hpid' : pid' = pid
      · simp only [hpid', hnew, if_true, true_and]
        constructor
        · rintro ⟨p, hp, rfl⟩
          cases hp
          exact Or.inl rfl
        · rintro (rfl | ⟨p, hp, -⟩)
          · exact ⟨_, rfl, rfl⟩
          · cases hp
      · simp [hpid']
    refine h.relayout hwindow (fun k pid' hk => ?_)
      ⟨.of_unzoomed rfl ?_, hperm.mem_iff.mpr List.mem_cons_self, fun pid' => ?_⟩
    · rw [hhouses]
      simp [hk]
    · refine hperm.nodup_iff.mpr (List.nodup_cons.mpr ⟨?_, htiled.layout.nodup⟩)
      intro hmem
      obtain ⟨p, hp, -⟩ := (htiled.leaves pid).mp hmem
      rw [hnew] at hp
      cases hp
    · show pid' ∈ tree.paneIds ↔ _
      rw [hperm.mem_iff, List.mem_cons, hhouses, htiled.leaves]
      simp

/-- A move of a window's layout keeps its leaves and focuses one of them. -/
theorem LayoutMove.tiled {window : Window R}
    {layout : WindowLayout R} {active : PaneId} (htiled : WindowTiled s wid window)
    (h : LayoutMove s wid window layout active) :
    layout.WellFormed ∧ active ∈ window.layout.full.paneIds ∧
      layout.full.paneIds.Perm window.layout.full.paneIds := by
  cases h with
  | @focus id pane layout hpane hhome hlayout hshown =>
    have hmem : active ∈ window.layout.full.paneIds :=
      (htiled.leaves active).mpr ⟨pane, hpane, hhome⟩
    rcases hlayout with rfl | ⟨zoomed, -, rfl⟩
    · exact ⟨htiled.layout, hmem, .refl _⟩
    · refine ⟨htiled.layout.toggleZoom zoomed, hmem, ?_⟩
      rw [full_toggleZoom]
  | resize htree =>
    have hids := paneIds_resizePane htree
    refine ⟨.of_unzoomed rfl ?_, htiled.active_pane, ?_⟩
    · rw [hids]
      exact htiled.layout.nodup
    · rw [full_of_unzoomed rfl, hids]
  | swap htree =>
    have hperm := paneIds_swapPanes htiled.layout.nodup htree
    exact ⟨.of_unzoomed rfl (hperm.nodup_iff.mpr htiled.layout.nodup), htiled.active_pane, hperm⟩
  | @zoom id active hactive hshown =>
    have hwell := htiled.layout.toggleZoom id
    refine ⟨hwell, ?_, ?_⟩
    · rcases hactive with rfl | ⟨rfl, hzoomed⟩
      · exact htiled.active_pane
      · obtain ⟨zoom, hzoom, heq⟩ := Option.map_eq_some_iff.mp hzoomed
        have hshown := (hwell.shown zoom hzoom).2
        rwa [heq, full_toggleZoom] at hshown
    · rw [full_toggleZoom]

omit [F32 R] in
/-- Bumping the panes of a window leaves each where it lives. -/
theorem Linked.houses_relayout (h : Linked s) (layout : WindowLayout R)
    (active : PaneId) {moved : Prop}
    (hpanes : PanesBumped s wid moved panes) (k : WindowId) (pid : PaneId) :
    Houses (s.relayout wid layout active panes) k pid ↔ Houses s k pid := by
  rcases h.get_of_bumped hpanes with hbumped | ⟨rfl, -⟩
  · simp only [Houses, SessionGraphSnapshot.relayout, hbumped]
    cases s.panes.get pid with
    | none => simp
    | some p =>
      simp only [Option.map_some, Option.some.injEq, exists_eq_left']
      split_ifs
      · rfl
      · rfl
  · rfl

theorem Tiled.of_relayouts (h : Tiled s) (hlinked : Linked s)
    (hrelayouts : Relayouts s wid s' evs) : Tiled s' := by
  cases hrelayouts with
  | @intro window layout active panes focusEvents hwindow hmove hpanes hfocus =>
    have htiled := h wid window hwindow
    obtain ⟨hwell, hactive, hperm⟩ := hmove.tiled htiled
    have hhouses := hlinked.houses_relayout layout active hpanes
    exact h.relayout hwindow (fun k pid _ => hhouses k pid)
      (htiled.of_leaves hwell hactive hperm (hhouses wid))

/-- Every effect but the bare creation keeps the windows tiled. -/
theorem Effect.tiled [Host] {kinds : Set Kind} {lo hi : Nat}
    (h : Effect kinds lo hi s s' evs) (hbare : .addPane ∉ kinds) (hdrawn : Drawn lo s)
    (hlinked : Linked s) (htiled : Tiled s) : Tiled s' := by
  cases h with
  | addSession hkind h =>
    cases h with
    | intro at₀ seq hsid hwid hpid hname hfree hprobe hcapacity htitle =>
      exact htiled.add_window hlinked (hdrawn.get_window hwid) (hdrawn.get_pane hpid) rfl rfl rfl
  | addWindow hkind h =>
    cases h with
    | intro index hwid hpid hsession htitle hfree hcapacity =>
      exact htiled.add_window hlinked (hdrawn.get_window hwid) (hdrawn.get_pane hpid) rfl rfl rfl
  | addPane hkind h => exact absurd hkind hbare
  | splitPane hkind h => exact htiled.of_splitsPane hdrawn h
  | removeSession hkind h =>
    obtain ⟨session, -, hgone, -⟩ := hlinked.gone_of_removesSession h
    exact htiled.remove_windows hgone
  | removeWindow hkind h => exact htiled.remove_windows (hlinked.gone_of_removesWindow h)
  | removePane hkind h => exact htiled.of_removesPane hlinked h
  | editSession hkind hsession h =>
    exact fun wid w hw => (htiled wid w hw).of_same rfl rfl fun _ => Iff.rfl
  | @renameWindow wid _ _ hkind h =>
    cases h with
    | intro hwindow hsession htitle hfree =>
      intro k w hw
      rw [SessionGraphSnapshot.editWindow, get_modify] at hw
      split_ifs at hw with hk
      · obtain ⟨w₀, hw₀, rfl⟩ := Option.map_eq_some_iff.mp hw
        exact (htiled k w₀ hw₀).of_same rfl rfl fun _ => Iff.rfl
      · exact (htiled k w hw).of_same rfl rfl fun _ => Iff.rfl
  | @editPane pid pane edit _ hkind hpane hkeeps hevs =>
    intro wid w hw
    refine (htiled wid w hw).of_same rfl rfl fun pid' => ?_
    simp only [Houses, SessionGraphSnapshot.editPane, get_modify]
    split_ifs with hpid
    · cases s.panes.get pid' with
      | none => simp
      | some p =>
        have hwin : (edit p).windowId = p.windowId := (hkeeps p).windowId
        simp [hwin]
    · rfl
  | relayout hkind h => exact htiled.of_relayouts hlinked h

section Runs

variable [Host]

theorem Trace.tiled {kinds : Set Kind} {lo hi n : Nat}
    (h : Trace kinds lo hi n s s' evs) (hbare : .addPane ∉ kinds) (hsound : Sound lo s)
    (htiled : Tiled s) : Tiled s' := by
  have hboth := h.invariant (fun n s => Sound n s ∧ Tiled s) ?_ ?_ ⟨hsound, htiled⟩
  · exact hboth.2
  · rintro lo hi s hle ⟨hs, ht⟩
    exact ⟨⟨hs.drawn.mono hle, hs.linked⟩, ht⟩
  · rintro lo hi s s' evs hle heffect ⟨hs, ht⟩
    exact ⟨heffect.sound hle hs, heffect.tiled hbare hs.drawn hs.linked ht⟩

/-- After any commands but bare pane creations, answered or refused, the references agree
and the trees have the panes as their leaves. -/
theorem run_linked_tiled (cmds : List (GraphCommand R)) (hbare : ∀ cmd ∈ cmds, cmd.isBare = false) :
    Linked (SessionGraph.newWithEventBus.run cmds).state ∧
      Tiled (SessionGraph.newWithEventBus.run cmds).state := by
  have hkinds : ∀ cmd ∈ cmds, cmd.kinds ⊆ {k | k ≠ .addPane} := by
    rintro cmd hmem k hk rfl
    have htrue := GraphCommand.isBare_of_mem_kinds hk
    rw [hbare cmd hmem] at htrue
    cases htrue
  obtain ⟨n, evs, hadvances⟩ := run_moves SessionGraph.newWithEventBus cmds hkinds
  refine ⟨(hadvances.trace.sound sound_default).linked, ?_⟩
  exact hadvances.trace.tiled (fun h => h rfl) sound_default fun _ _ h => by cases h

/-- The structural invariant: after any commands but bare pane creations, answered or
refused, the references agree, every window is in one session's list, and the leaves
of its tree are its panes. -/
theorem run_structure (cmds : List (GraphCommand R)) (hbare : ∀ cmd ∈ cmds, cmd.isBare = false) :
    let s := (SessionGraph.newWithEventBus.run cmds).state
    Linked s ∧ Tiled s ∧ ∀ wid w, s.windows.get wid = some w →
      ∃! sid, ∃ x, s.sessions.get sid = some x ∧ wid ∈ x.windows := by
  intro s
  obtain ⟨hlinked, htiled⟩ := run_linked_tiled cmds hbare
  refine ⟨hlinked, htiled, fun wid w hw => ?_⟩
  obtain ⟨x, hx, hmem⟩ := hlinked.window_listed wid w hw
  refine ⟨w.sessionId, ⟨x, hx, hmem⟩, ?_⟩
  rintro sid ⟨x', hx', hmem'⟩
  exact hlinked.session_unique hx' hx hmem' hmem

end Runs

open Sample in
/-- Two panes, one zoomed, the other focused through the zoom. -/
theorem run_structure_zoomed :
    let s := (SessionGraph.newWithEventBus.run [create, .splitPane ⟨⟨1⟩⟩ .vertical (1 / 2) [],
      .zoomPane ⟨⟨1⟩⟩ none, .focusPane ⟨⟨11⟩⟩]).state
    s.panes.size = 2 ∧ Linked s ∧ Tiled s ∧ ∀ wid w, s.windows.get wid = some w →
      ∃! sid, ∃ x, s.sessions.get sid = some x ∧ wid ∈ x.windows :=
  ⟨by decide, run_structure _ (by decide)⟩

end Shux
