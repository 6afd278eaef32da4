/-
# Replaying the event log

A subscriber that has seen every event can rebuild what the graph holds. `Mirror` is
what it keeps, `Mirror.apply` what it does with one event, and `Mirrors` says that a
mirror agrees with a snapshot. Each effect publishes exactly the events that take a
mirror of the snapshot before it to a mirror of the snapshot after it, so the fold
of a whole log is a mirror of the final snapshot.
-/

import Shux.Core.Structure

namespace Shux

open FinMap Option

/-- What a subscriber knows of a window. -/
structure WindowView where
  sessionId : SessionId
  title : Str
  zoomed : Option PaneId
  deriving DecidableEq

/-- What a subscriber knows: session names, windows, and the window of each pane. -/
structure Mirror where
  sessions : FinMap SessionId Str
  windows : FinMap WindowId WindowView
  panes : FinMap PaneId WindowId

namespace Mirror

def empty : Mirror := ⟨∅, ∅, ∅⟩

/-- What one event tells. A pane that exited with a status stays: only its program
ended. -/
def apply (m : Mirror) : EventData → Mirror
  | .sessionCreated sid name => { m with sessions := m.sessions.insert sid name }
  | .sessionRenamed sid _ newName => { m with sessions := m.sessions.modify sid fun _ => newName }
  | .sessionKilled sid _ => { m with sessions := m.sessions.remove sid }
  | .windowCreated wid sid title _ => { m with windows := m.windows.insert wid ⟨sid, title, none⟩ }
  | .windowRenamed wid _ _ newTitle =>
    { m with windows := m.windows.modify wid fun v => { v with title := newTitle } }
  | .windowKilled wid _ => { m with windows := m.windows.remove wid }
  | .paneCreated pid wid _ _ => { m with panes := m.panes.insert pid wid }
  | .paneExited pid _ _ none _ _ _ => { m with panes := m.panes.remove pid }
  | .paneZoomed pid wid _ zoomed =>
    { m with
      windows := m.windows.modify wid fun v =>
        { v with zoomed := if zoomed then some pid else none } }
  | _ => m

/-- The mirror a list of events leads to. -/
def replay (m : Mirror) (events : List EventData) : Mirror := events.foldl apply m

@[simp]
theorem replay_nil (m : Mirror) : m.replay [] = m := rfl

@[simp]
theorem replay_cons (m : Mirror) (e : EventData) (rest : List EventData) :
    m.replay (e :: rest) = (m.apply e).replay rest := rfl

theorem replay_append (m : Mirror) (evs evs' : List EventData) :
    m.replay (evs ++ evs') = (m.replay evs).replay evs' := List.foldl_append

theorem replay_notices (m : Mirror) {evs : List EventData} (h : ∀ e ∈ evs, e.IsNotice) :
    m.replay evs = m := by
  induction evs with
  | nil => rfl
  | cons e rest ih =>
    have hfirst : m.apply e = m := by
      have he := h e List.mem_cons_self
      unfold EventData.IsNotice at he
      split at he
      case h_6 => exact he.elim
      all_goals rfl
    rw [replay_cons, hfirst]
    exact ih fun e' hmem => h e' (List.mem_cons_of_mem e hmem)

/-- The removals announced for a list of panes. -/
theorem replay_paneExited (m : Mirror) (killed : List Pane) (wid : Pane → WindowId)
    (sid : SessionId) :
    m.replay (killed.map fun p => .paneExited p.id (wid p) sid none none false p.command) =
      { m with panes := m.panes.removeAll (killed.map (·.id)) } := by
  induction killed generalizing m with
  | nil => rfl
  | cons p rest ih =>
    rw [List.map_cons, replay_cons, ih]
    rfl

theorem replay_windowKilled (m : Mirror) (wids : List WindowId) (sid : SessionId) :
    m.replay (wids.map fun wid => .windowKilled wid sid) =
      { m with windows := m.windows.removeAll wids } := by
  induction wids generalizing m with
  | nil => rfl
  | cons wid rest ih =>
    rw [List.map_cons, replay_cons, ih]
    rfl

/-- The announcements of a zoom set the zoom of that window. -/
theorem replay_zoomEvents (m : Mirror) (wid : WindowId) (sid : SessionId)
    (was now : Option PaneId) (v : WindowView) (hv : m.windows.get wid = some v)
    (hwas : v.zoomed = was) :
    (m.replay (zoomEvents wid sid was now)).sessions = m.sessions ∧
    (m.replay (zoomEvents wid sid was now)).panes = m.panes ∧
    ∀ k, (m.replay (zoomEvents wid sid was now)).windows.get k =
      if k = wid then some { v with zoomed := now } else m.windows.get k := by
  rw [zoomEvents]
  by_cases hsame : was = now
  · rw [if_pos hsame]
    refine ⟨rfl, rfl, fun k => ?_⟩
    split_ifs with hk
    · rw [replay_nil, hk, hv, ← hsame, ← hwas]
    · rfl
  · rw [if_neg hsame]
    cases was with
    | none =>
      cases now with
      | none => exact absurd rfl hsame
      | some p =>
        refine ⟨rfl, rfl, fun k => ?_⟩
        show (m.windows.modify wid fun v => { v with zoomed := some p }).get k = _
        rw [get_modify]
        split_ifs with hk
        · rw [hk, hv]
          rfl
        · rfl
    | some p =>
      cases now with
      | none =>
        refine ⟨rfl, rfl, fun k => ?_⟩
        show (m.windows.modify wid fun v => { v with zoomed := none }).get k = _
        rw [get_modify]
        split_ifs with hk
        · rw [hk, hv]
          rfl
        · rfl
      | some q =>
        refine ⟨rfl, rfl, fun k => ?_⟩
        show ((m.windows.modify wid fun v => { v with zoomed := none }).modify wid
          fun v => { v with zoomed := some q }).get k = _
        rw [get_modify, get_modify]
        split_ifs with hk
        · rw [hk, hv]
          rfl
        · rfl

end Mirror

variable {R : Type}

/-- What a subscriber should know of a window. -/
def Window.view (w : Window R) : WindowView := ⟨w.sessionId, w.title, zoomedPane w.layout⟩

/-- A mirror that agrees with a snapshot: the same ids with the same parents, and the
same names, titles and zooms. -/
structure Mirrors (m : Mirror) (s : SessionGraphSnapshot R) : Prop where
  sessions : ∀ sid, m.sessions.get sid = (s.sessions.get sid).map (·.name)
  windows : ∀ wid, m.windows.get wid = (s.windows.get wid).map (·.view)
  panes : ∀ pid, m.panes.get pid = (s.panes.get pid).map (·.windowId)

namespace Mirrors

variable {m : Mirror} {s s' : SessionGraphSnapshot R} {evs : List EventData}
variable {sid : SessionId} {wid : WindowId}

section

variable (h : Mirrors m s)
include h

/-- The events of a layout operation tell the new zoom. -/
theorem relayout {window : Window R}
    (hwindow : s.windows.get wid = some window) (layout : WindowLayout R) (active : PaneId) :
    Mirrors (m.replay (zoomEvents wid window.sessionId (zoomedPane window.layout)
      (zoomedPane layout))) (s.relayout wid layout active s.panes) := by
  have hv : m.windows.get wid = some window.view := by
    rw [h.windows, hwindow]
    rfl
  obtain ⟨hsessions, hpanes, hwindows⟩ :=
    m.replay_zoomEvents wid window.sessionId (zoomedPane window.layout) (zoomedPane layout)
      window.view hv rfl
  refine ⟨fun sid => ?_, fun k => ?_, fun pid => ?_⟩
  · rw [hsessions]
    exact h.sessions sid
  · rw [hwindows, SessionGraphSnapshot.relayout, get_modify]
    split_ifs with hk
    · rw [hk, hwindow]
      rfl
    · exact h.windows k
  · rw [hpanes]
    exact h.panes pid

/-- A pane appears last, after the layout has moved. -/
theorem add_pane (pid : PaneId) (p : Pane) (sid : SessionId)
    (command : List Str) (hsessions : s'.sessions = s.sessions) (hwindows : s'.windows = s.windows)
    (hpanes : s'.panes = s.panes.insert pid p) :
    Mirrors (m.apply (.paneCreated pid p.windowId sid command)) s' := by
  refine ⟨fun k => ?_, fun k => ?_, fun k => ?_⟩
  · rw [hsessions]
    exact h.sessions k
  · rw [hwindows]
    exact h.windows k
  · show (m.panes.insert pid p.windowId).get k = _
    rw [hpanes, get_insert, get_insert]
    split_ifs
    · rfl
    · exact h.panes k

/-- A window of one pane appears, its session as the mirror already has it. -/
theorem add_window {title : Str}
    {pid : PaneId} {p : Pane} (index : Nat) (command : List Str) (htitle : GoodTitle title)
    (hp : p.windowId = wid)
    (hsessions : ∀ k, (s'.sessions.get k).map (·.name) = (s.sessions.get k).map (·.name))
    (hwindows : s'.windows = s.windows.insert wid (.new wid sid title pid))
    (hpanes : s'.panes = s.panes.insert pid p) :
    Mirrors (m.replay [.windowCreated wid sid title index, .paneCreated pid wid sid command])
      s' := by
  have hview : (Window.new wid sid title pid : Window R).view = ⟨sid, title, none⟩ := by
    have hclean := ((goodTitle_iff title).mp htitle).1
    show WindowView.mk sid (sanitizeTitle title) none = _
    rw [hclean]
  refine ⟨fun k => ?_, fun k => ?_, fun k => ?_⟩
  · rw [hsessions]
    exact h.sessions k
  · show (m.windows.insert wid ⟨sid, title, none⟩).get k = _
    rw [hwindows, get_insert, get_insert]
    split_ifs
    · rw [map_some, hview]
    · exact h.windows k
  · show (m.panes.insert pid wid).get k = _
    rw [hpanes, get_insert, get_insert]
    split_ifs
    · rw [map_some, hp]
    · exact h.panes k

/-- Only the panes' versions and contents moved. -/
theorem of_panes (hsessions : s'.sessions = s.sessions) (hwindows : s'.windows = s.windows)
    (hpanes : ∀ pid, (s'.panes.get pid).map (·.windowId) = (s.panes.get pid).map (·.windowId)) :
    Mirrors m s' := by
  refine ⟨fun sid => ?_, fun wid => ?_, fun pid => ?_⟩
  · rw [hsessions]
    exact h.sessions sid
  · rw [hwindows]
    exact h.windows wid
  · rw [hpanes]
    exact h.panes pid

/-- A session appears by its first event. -/
theorem add_session (sid : SessionId) (x : Session) :
    Mirrors (m.apply (.sessionCreated sid x.name))
      { s with sessions := s.sessions.insert sid x } := by
  refine ⟨fun k => ?_, h.windows, h.panes⟩
  show (m.sessions.insert sid x.name).get k = _
  rw [get_insert, get_insert]
  split_ifs
  · rfl
  · exact h.sessions k

theorem remove_session (hremoves : RemovesSession s sid s' evs) : Mirrors (m.replay evs) s' := by
  cases hremoves with
  | @intro session listed hsession hlisted killed hkilled =>
    rw [Mirror.replay_append, Mirror.replay_append,
      Mirror.replay_paneExited m killed (·.windowId) sid, Mirror.replay_windowKilled]
    refine ⟨fun k => ?_, fun k => ?_, fun k => ?_⟩
    · show (m.sessions.remove sid).get k = _
      rw [get_remove, get_remove]
      split_ifs
      · rfl
      · exact h.sessions k
    · show (m.windows.removeAll session.windows).get k = _
      rw [get_removeAll, get_removeAll]
      split_ifs
      · rfl
      · exact h.windows k
    · show (m.panes.removeAll (killed.map (·.id))).get k = _
      rw [get_removeAll, get_removeAll]
      split_ifs
      · rfl
      · exact h.panes k

theorem remove_window (hremoves : RemovesWindow s wid s' evs) : Mirrors (m.replay evs) s' := by
  cases hremoves with
  | @intro window session listed hwindow hsession hmore hlisted killed hkilled =>
    rw [Mirror.replay_append, Mirror.replay_paneExited m killed (fun _ => wid) window.sessionId]
    refine ⟨fun k => ?_, fun k => ?_, fun k => ?_⟩
    · show m.sessions.get k = _
      rw [h.sessions, get_modify]
      split_ifs
      · rw [map_map]
        rfl
      · rfl
    · show (m.windows.remove wid).get k = _
      rw [get_remove, get_remove]
      split_ifs
      · rfl
      · exact h.windows k
    · show (m.panes.removeAll (killed.map (·.id))).get k = _
      rw [get_removeAll, get_removeAll]
      split_ifs
      · rfl
      · exact h.panes k

theorem edit_session [Host] {session : Session}
    {edit : Session → Session} (hedit : SessionEdit s sid session edit evs) :
    Mirrors (m.replay evs) (s.editSession sid edit) := by
  -- Only a rename tells anything, and only a rename has something to tell.
  have hsame : (∀ x, (edit x).name = x.name) → Mirrors m (s.editSession sid edit) := by
    intro hname
    refine ⟨fun k => ?_, h.windows, h.panes⟩
    rw [h.sessions, SessionGraphSnapshot.editSession, get_modify]
    split_ifs
    · rw [map_map]
      congr 1
      funext x
      exact (hname x).symm
    · rfl
  cases hedit with
  | @rename name hname hfree =>
    refine ⟨fun k => ?_, h.windows, h.panes⟩
    show (m.sessions.modify sid fun _ => name).get k = _
    rw [SessionGraphSnapshot.editSession, get_modify, get_modify, h.sessions]
    split_ifs
    · rw [map_map, map_map]
      rfl
    · rfl
  | decorate => exact hsame fun _ => rfl
  | focus hmem => exact hsame fun _ => rfl
  | @reorder wid index hindex =>
    refine hsame fun x => ?_
    dsimp only
    split
    · rfl
    · rfl

end

variable [F32 R]

theorem remove_pane (h : Mirrors m s) {pid : PaneId} (hremoves : RemovesPane s pid s' evs) :
    Mirrors (m.replay evs) s' := by
  cases hremoves with
  | @intro pane window listed active hpane hmore hwindow hactive =>
    have hzoom : zoomedPane (window.layout.removePane pid).1 = none := by
      rw [WindowLayout.removePane_fst]
      rfl
    have hmoved := h.relayout hwindow (window.layout.removePane pid).1 active
    rw [hzoom] at hmoved
    rw [Mirror.replay_append]
    refine ⟨hmoved.sessions, hmoved.windows, fun k => ?_⟩
    show ((m.replay _).panes.remove pid).get k = ((s.panes.remove pid).get k).map _
    rw [get_remove, get_remove]
    split_ifs
    · rfl
    · exact hmoved.panes k

theorem relayouts (h : Mirrors m s) (hlinked : Linked s)
    (hrelayouts : Relayouts s wid s' evs) : Mirrors (m.replay evs) s' := by
  cases hrelayouts with
  | @intro window layout active panes focusEvents hwindow hmove hpanes hfocus =>
    rw [Mirror.replay_append, Mirror.replay_notices _ hfocus]
    refine (h.relayout hwindow layout active).of_panes rfl rfl fun pid => ?_
    show (panes.get pid).map _ = (s.panes.get pid).map _
    rcases hlinked.get_of_bumped hpanes with hbumped | ⟨rfl, -⟩
    · rw [hbumped, map_map]
      congr 1
      funext p
      show (if p.windowId = wid then p.bump else p).windowId = p.windowId
      split_ifs
      · rfl
      · rfl
    · rfl

end Mirrors

section Effects

variable [Host] [F32 R]

/-- The events of an effect take a mirror along with the snapshot. -/
theorem Effect.mirrors {kinds : Set Kind} {lo hi : Nat} {m : Mirror} {s s' : SessionGraphSnapshot R}
    {evs : List EventData} (h : Effect kinds lo hi s s' evs) (hlinked : Linked s)
    (hm : Mirrors m s) : Mirrors (m.replay evs) s' := by
  cases h with
  | addSession hkind h =>
    cases h with
    | @intro sid probe wid pid name title cwd command at₀ seq hsid hwid hpid hname hfree hprobe
        hcapacity htitle =>
        exact (hm.add_session sid (.new sid at₀ seq name wid)).add_window 1 command htitle rfl
          (fun _ => rfl) rfl rfl
  | addWindow hkind h =>
    cases h with
    | @intro sid session wid pid title cwd command index hwid hpid hsession htitle =>
      refine hm.add_window index command htitle rfl (fun k => ?_) rfl rfl
      rw [get_modify]
      split_ifs
      · rw [map_map]
        rfl
      · rfl
  | addPane hkind h =>
    cases h with
    | @intro wid window pid cwd command =>
      exact hm.add_pane pid (.withCommand pid wid cwd command) window.sessionId command rfl rfl rfl
  | splitPane hkind h =>
    cases h with
    | @intro pid pane window direction ratio tree cwd command hpid hpane hwindow =>
      rw [Mirror.replay_append]
      exact (hm.relayout hwindow ⟨tree, none⟩ pid).add_pane pid
        (.withCommand pid pane.windowId cwd command) window.sessionId command rfl rfl rfl
  | removeSession hkind h => exact hm.remove_session h
  | removeWindow hkind h => exact hm.remove_window h
  | removePane hkind h => exact hm.remove_pane h
  | editSession hkind hsession h => exact hm.edit_session h
  | @renameWindow wid _ _ hkind h =>
    cases h with
    | @intro window session title hwindow hsession htitle hfree =>
      refine ⟨hm.sessions, fun k => ?_, hm.panes⟩
      show (m.windows.modify wid fun v => { v with title := title }).get k = _
      rw [SessionGraphSnapshot.editWindow, get_modify, get_modify, hm.windows]
      split_ifs
      · rw [map_map, map_map]
        rfl
      · rfl
  | @editPane pid pane edit evs hkind hpane hkeeps hevs =>
    rw [Mirror.replay_notices m hevs]
    refine hm.of_panes rfl rfl fun k => ?_
    rw [SessionGraphSnapshot.editPane, get_modify]
    split_ifs
    · rw [map_map]
      congr 1
      funext p
      exact (hkeeps p).windowId
    · rfl
  | relayout hkind h => exact hm.relayouts hlinked h

theorem Trace.mirrors {kinds : Set Kind} {lo hi n : Nat}
    {s s' : SessionGraphSnapshot R} {m : Mirror}
    {evs : List EventData} (h : Trace kinds lo hi n s s' evs) (hsound : Sound lo s)
    (hm : Mirrors m s) : Mirrors (m.replay evs) s' := by
  induction h with
  | refl s hle => exact hm
  | snoc htrace heffect hle ih =>
    rw [Mirror.replay_append]
    exact heffect.mirrors (htrace.sound hsound).linked (ih hsound hm)

/-- Replaying everything published since the empty graph gives a mirror of the state. -/
theorem run_replay (cmds : List (GraphCommand R)) :
    let g := SessionGraph.newWithEventBus.run cmds
    Mirrors (Mirror.empty.replay g.eventBus.log) g.state := by
  intro g
  obtain ⟨n, evs, hadvances⟩ := run_moves SessionGraph.newWithEventBus cmds
    fun cmd _ => Set.subset_univ cmd.kinds
  have hlog : g.eventBus.log = evs := hadvances.log
  rw [hlog]
  exact hadvances.trace.mirrors sound_default ⟨fun _ => rfl, fun _ => rfl, fun _ => rfl⟩

end Effects

open Sample in
/-- The zoomed pane and the split's pane of a run, as its log tells them. -/
example :
    let g := SessionGraph.newWithEventBus.run [create, .splitPane ⟨⟨1⟩⟩ .vertical (1 / 2) [],
      .zoomPane ⟨⟨1⟩⟩ none]
    (Mirror.empty.replay g.eventBus.log).windows.get ⟨⟨2⟩⟩ =
      some ⟨⟨⟨9⟩⟩, "sh".toList, some ⟨⟨1⟩⟩⟩ := by decide

end Shux
