/-
# Effects

What a committed operation does to the snapshot, and the events it publishes with
it. Twenty-odd operations have a dozen effects between them: the direct and the
staged form of an operation share one, and so do all operations that only move a
layout. An effect states the guards the code checked and the snapshot it stored,
nothing the code does not know; what follows from them is the invariants' business.

New ids come from the host between two counts of draws, which is how an effect says
that they are new. Every effect is of a kind, and what a command can do at all is
said by the kinds of its effects.
-/

import Shux.Core.Command

namespace Shux

variable {R : Type}
variable (p : Pane)

section Drawing

variable [Host]

/-- A UUID drawn from the host with a count in `[lo, hi)`. -/
def Fresh (lo hi : Nat) (uuid : Uuid) : Prop := ∃ n, lo ≤ n ∧ n < hi ∧ uuid = Host.newV4 n

/-- A session, its first window and that window's pane appear. -/
inductive AddsSession (lo hi : Nat) (s : SessionGraphSnapshot R) :
    SessionGraphSnapshot R → List EventData → Prop
  | intro {sid probe : SessionId} {wid : WindowId} {pid : PaneId} {name title : Str}
      {cwd : PathBuf} {command : List Str} (createdAt createdSeq : Nat)
      (hsid : Fresh lo hi sid.uuid) (hwid : Fresh lo hi wid.uuid) (hpid : Fresh lo hi pid.uuid)
      (hname : validateSessionName name = .ok ()) (hfree : s.sessionNameExists name = false)
      (hprobe : Fresh lo hi probe.uuid)
      (hcapacity : checkSessionCapacity s probe command cwd = .ok ())
      (htitle : GoodTitle title) :
      AddsSession lo hi s
        { s.bumped with
          panes := s.panes.insert pid (.withCommand pid wid cwd command)
          windows := s.windows.insert wid (.new wid sid title pid)
          sessions := s.sessions.insert sid (.new sid createdAt createdSeq name wid) }
        [.sessionCreated sid name, .windowCreated wid sid title 1, .paneCreated pid wid sid command]

/-- A window of one pane appears in a session and becomes its active window. -/
inductive AddsWindow (lo hi : Nat) (s : SessionGraphSnapshot R) :
    SessionGraphSnapshot R → List EventData → Prop
  | intro {sid : SessionId} {session : Session} {wid : WindowId} {pid : PaneId} {title : Str}
      {cwd : PathBuf} {command : List Str} (index : Nat)
      (hwid : Fresh lo hi wid.uuid) (hpid : Fresh lo hi pid.uuid)
      (hsession : s.sessions.get sid = some session) (htitle : GoodTitle title)
      (hfree : s.windowNameExistsInSession sid title = false)
      (hcapacity : checkSessionCapacity s sid command cwd = .ok ()) :
      AddsWindow lo hi s
        { s.bumped with
          panes := s.panes.insert pid (.withCommand pid wid cwd command)
          windows := s.windows.insert wid (.new wid sid title pid)
          sessions := s.sessions.modify sid fun s =>
            { s with windows := s.windows ++ [wid], activeWindow := wid,
                     version := s.version + 1 } }
        [.windowCreated wid sid title index, .paneCreated pid wid sid command]

end Drawing

/-- The announcements of a zoom that changed. -/
def zoomEvents (wid : WindowId) (sid : SessionId) (was now : Option PaneId) : List EventData :=
  if was = now then []
  else (was.map fun p => unzoomEvent p wid sid).toList ++
    (now.map fun p => .paneZoomed p wid sid true).toList

theorem zoomEvents_none (wid : WindowId) (sid : SessionId) (was : Option PaneId) :
    zoomEvents wid sid was none = (was.map fun p => unzoomEvent p wid sid).toList := by
  cases was with
  | none => rfl
  | some p => rfl

/-- A pane appears that no layout shows. -/
inductive AddsPane [Host] (lo hi : Nat) (s : SessionGraphSnapshot R) :
    SessionGraphSnapshot R → List EventData → Prop
  | intro {wid : WindowId} {window : Window R} {pid : PaneId} {cwd : PathBuf}
      {command : List Str} (hpid : Fresh lo hi pid.uuid)
      (hwindow : s.windows.get wid = some window)
      (hcapacity : checkSessionCapacity s window.sessionId command cwd = .ok ()) :
      AddsPane lo hi s
        { s.bumped with panes := s.panes.insert pid (.withCommand pid wid cwd command) }
        [.paneCreated pid wid window.sessionId command]

/-- A session disappears with its windows and their panes. -/
inductive RemovesSession (s : SessionGraphSnapshot R) (sid : SessionId) :
    SessionGraphSnapshot R → List EventData → Prop
  | intro {session : Session} {listed : List Pane}
      (hsession : s.sessions.get sid = some session) (hlisted : listed.Perm s.panes.values)
      (killed : List Pane) (hkilled : killed = listed.filter fun p =>
        session.windows.contains p.windowId) :
      RemovesSession s sid
        { s.bumped with
          panes := s.panes.removeAll (killed.map (·.id))
          windows := s.windows.removeAll session.windows
          sessions := s.sessions.remove sid }
        ((killed.map fun p => .paneExited p.id p.windowId sid none none false p.command) ++
          (session.windows.map fun wid => .windowKilled wid sid) ++
          [.sessionKilled sid session.name])

/-- A window that is not its session's last disappears with its panes. -/
inductive RemovesWindow (s : SessionGraphSnapshot R) (wid : WindowId) :
    SessionGraphSnapshot R → List EventData → Prop
  | intro {window : Window R} {session : Session} {listed : List Pane}
      (hwindow : s.windows.get wid = some window)
      (hsession : s.sessions.get window.sessionId = some session)
      (hmore : 1 < session.windows.length) (hlisted : listed.Perm s.panes.values)
      (killed : List Pane) (hkilled : killed = listed.filter fun p => p.windowId = wid) :
      RemovesWindow s wid
        { s.bumped with
          panes := s.panes.removeAll (killed.map (·.id))
          sessions := s.sessions.modify window.sessionId fun s =>
            { s with
              windows := s.windows.filter fun w => w ≠ wid
              activeWindow :=
                if s.activeWindow = wid then (s.windows.filter fun w => w ≠ wid).headD wid
                else s.activeWindow
              version := s.version + 1 }
          windows := s.windows.remove wid }
        ((killed.map fun p => .paneExited p.id wid window.sessionId none none false p.command) ++
          [.windowKilled wid window.sessionId])

/-- How an operation may edit a session in place. -/
inductive SessionEdit [Host] (s : SessionGraphSnapshot R) (sid : SessionId) (session : Session) :
    (Session → Session) → List EventData → Prop
  | rename {name : Str} (hname : validateSessionName name = .ok ())
      (hfree : s.sessionNameExists name = false) :
      SessionEdit s sid session (fun x => { x with name := name, version := x.version + 1 })
        [.sessionRenamed sid session.name name]
  | decorate {tags : Session → Tags} {theme : Session → Option ThemeRef} :
      SessionEdit s sid session
        (fun x => { x with tags := tags x, theme := theme x, version := x.version + 1 }) []
  | focus {wid : WindowId} (hmem : wid ∈ session.windows) :
      SessionEdit s sid session
        (fun x => { x with activeWindow := wid, version := x.version + 1 }) []
  | reorder {wid : WindowId} {index : Nat} (hindex : index < session.windows.length) :
      SessionEdit s sid session
        (fun x =>
          match x.windows.idxOf? wid with
          | some i => { x with windows := (x.windows.eraseIdx i).insertIdx index wid
                               version := x.version + 1 }
          | none => x) []

/-- A window gets another title. -/
inductive RenamesWindow (s : SessionGraphSnapshot R) (wid : WindowId) :
    SessionGraphSnapshot R → List EventData → Prop
  | intro {window : Window R} {session : Session} {title : Str}
      (hwindow : s.windows.get wid = some window)
      (hsession : s.sessions.get window.sessionId = some session) (htitle : GoodTitle title)
      (hfree : ∀ other ∈ session.windows, other ≠ wid →
        ∀ w, s.windows.get other = some w → w.title ≠ title) :
      RenamesWindow s wid
        (s.editWindow wid fun w => { w with title := title, version := w.version + 1 })
        [.windowRenamed wid window.sessionId window.title title]

/-- Events that say something about a pane without adding, removing or zooming it. -/
def EventData.IsNotice : EventData → Prop
  | .paneFocused .. | .paneTitleChanged .. | .paneRespawned .. | .paneStatusChanged .. => True
  | .paneExited _ _ _ (some _) _ _ _ => True
  | _ => False

/-- Two states of a pane that agree on where it is, what it runs and its version. -/
structure SamePlace (p q : Pane) : Prop where
  id : q.id = p.id
  windowId : q.windowId = p.windowId
  cwd : q.cwd = p.cwd
  command : q.command = p.command
  version : q.version = p.version

/-- An edit of a pane that bumps it and leaves its place alone. -/
def KeepsPlace (edit : Pane → Pane) : Prop := ∀ p, SamePlace p.bump (edit p)

/-- What a pane shows of the program it runs. -/
def Pane.program (p : Pane) : Option Int × Option Int × Bool × Option StatusSummary × Bool × Bool :=
  (p.exitStatus, p.exitSignal, p.exitByShux, p.programStatus, p.programStatusSeen,
    p.programStatusEnabled)

/-- Two states of a pane that differ in its titles, tags and theme at most. -/
structure SameBody (p q : Pane) : Prop extends SamePlace p q where
  program : q.program = p.program

/-- An edit of a pane that bumps it and touches its titles, tags and theme at most. -/
def KeepsBody (edit : Pane → Pane) : Prop := ∀ p, SameBody p.bump (edit p)

theorem KeepsBody.keepsPlace {edit : Pane → Pane} (h : KeepsBody edit) : KeepsPlace edit :=
  fun p => (h p).toSamePlace

theorem SameBody.refl : SameBody p p := ⟨⟨rfl, rfl, rfl, rfl, rfl⟩, rfl⟩

theorem SameBody.trans {p q r : Pane} (h : SameBody p q) (h' : SameBody q r) : SameBody p r where
  id := h'.id.trans h.id
  windowId := h'.windowId.trans h.windowId
  cwd := h'.cwd.trans h.cwd
  command := h'.command.trans h.command
  version := h'.version.trans h.version
  program := h'.program.trans h.program

theorem SameBody.bump {p q : Pane} (h : SameBody p q) : SameBody p.bump q.bump where
  id := h.id
  windowId := h.windowId
  cwd := h.cwd
  command := h.command
  version := congrArg (· + 1) h.version
  program := h.program

theorem sameBody_recalculateTitle : SameBody p p.recalculateTitle := by
  obtain ⟨title, h⟩ := p.recalculateTitle_eq
  rw [h]
  exact ⟨⟨rfl, rfl, rfl, rfl, rfl⟩, rfl⟩

theorem sameBody_setManualTitle (title : Option Str) : SameBody p (p.setManualTitle title) := by
  have hset : SameBody p { p with manualTitle := title.map sanitizeTitleClamped } :=
    ⟨⟨rfl, rfl, rfl, rfl, rfl⟩, rfl⟩
  exact hset.trans (sameBody_recalculateTitle _)

theorem sameBody_setAutoTitle (enabled : Bool) : SameBody p (p.setAutoTitle enabled) := by
  rw [Pane.setAutoTitle]
  split_ifs
  · exact .refl p
  · have hset : SameBody p { p with autoTitle := enabled } := ⟨⟨rfl, rfl, rfl, rfl, rfl⟩, rfl⟩
    exact hset.trans (sameBody_recalculateTitle _)

theorem sameBody_setOscTitle (title : Str) : SameBody p (p.setOscTitle title).1 := by
  simp only [Pane.setOscTitle]
  generalize (if (sanitizeTitleClamped title).isEmpty = true then none
    else some (sanitizeTitleClamped title)) = osc
  split
  · exact .refl p
  · have hset : SameBody p { p with oscTitle := osc } := ⟨⟨rfl, rfl, rfl, rfl, rfl⟩, rfl⟩
    exact hset.trans (sameBody_recalculateTitle _)

/-- What the window of a layout operation looks like afterwards. The focus is never on a pane
that a zoom hides. -/
inductive LayoutMove [F32 R] (s : SessionGraphSnapshot R) (wid : WindowId) (window : Window R) :
    WindowLayout R → PaneId → Prop
  | focus {id : PaneId} {pane : Pane} {layout : WindowLayout R}
      (hpane : s.panes.get id = some pane) (hhome : pane.windowId = wid)
      (hlayout : layout = window.layout ∨
        ∃ zoomed, zoomedPane window.layout = some zoomed ∧
          layout = window.layout.toggleZoom zoomed)
      (hshown : ∀ zoomed, zoomedPane layout = some zoomed → id = zoomed) :
      LayoutMove s wid window layout id
  | resize {id : PaneId} {direction : Direction} {delta : R} {tree : LayoutNode R}
      (htree : window.layout.full.resizePane id direction delta = some tree) :
      LayoutMove s wid window ⟨tree, none⟩ window.activePane
  | swap {a b : PaneId} {tree : LayoutNode R}
      (htree : window.layout.full.swapPanes a b = some tree) :
      LayoutMove s wid window ⟨tree, none⟩ window.activePane
  | zoom {id : PaneId} {active : PaneId} (hactive : active = window.activePane ∨
        (active = id ∧ zoomedPane (window.layout.toggleZoom id) = some id))
      (hshown : ∀ zoomed, zoomedPane (window.layout.toggleZoom id) = some zoomed →
        active = zoomed) :
      LayoutMove s wid window (window.layout.toggleZoom id) active

/-- The two ways the code bumps every pane of a window, or none when the layout stays. -/
def PanesBumped (s : SessionGraphSnapshot R) (wid : WindowId) (moved : Prop)
    (panes : FinMap PaneId Pane) : Prop :=
  panes = bumpPanes (windowPaneIds s.panes wid) s.panes ∨
  (panes = s.panes.mapKV fun _ p => if p.windowId = wid then p.bump else p) ∨
  (panes = s.panes ∧ ¬ moved)

/-- A window's layout, zoom or focus moves. -/
inductive Relayouts [F32 R] (s : SessionGraphSnapshot R) (wid : WindowId) :
    SessionGraphSnapshot R → List EventData → Prop
  | intro {window : Window R} {layout : WindowLayout R} {active : PaneId}
      {panes : FinMap PaneId Pane} {focusEvents : List EventData}
      (hwindow : s.windows.get wid = some window)
      (hmove : LayoutMove s wid window layout active)
      (hpanes : PanesBumped s wid (layout ≠ window.layout) panes)
      (hfocus : ∀ e ∈ focusEvents, e.IsNotice) :
      Relayouts s wid (s.relayout wid layout active panes)
        (zoomEvents wid window.sessionId (zoomedPane window.layout) (zoomedPane layout) ++
          focusEvents)

/-- A pane appears beside another in its window's layout. -/
inductive SplitsPane [Host] [F32 R] (lo hi : Nat) (s : SessionGraphSnapshot R) (target : PaneId) :
    SessionGraphSnapshot R → List EventData → Prop
  | intro {pid : PaneId} {pane : Pane} {window : Window R} {direction : Direction}
      {ratio : R} {tree : LayoutNode R} {cwd : PathBuf} {command : List Str}
      (hpid : Fresh lo hi pid.uuid) (hpane : s.panes.get target = some pane)
      (hwindow : s.windows.get pane.windowId = some window)
      (hcapacity : checkSessionCapacity s window.sessionId command cwd = .ok ())
      (htree : window.layout.full.splitPane target pid direction ratio = some tree) :
      SplitsPane lo hi s target
        (s.relayout pane.windowId ⟨tree, none⟩ pid
          (s.panes.insert pid (.withCommand pid pane.windowId cwd command)))
        (zoomEvents pane.windowId window.sessionId (zoomedPane window.layout) none ++
          [.paneCreated pid pane.windowId window.sessionId command])

/-- A pane that is not its window's last disappears. -/
inductive RemovesPane [F32 R] (s : SessionGraphSnapshot R) (pid : PaneId) :
    SessionGraphSnapshot R → List EventData → Prop
  | intro {pane : Pane} {window : Window R} (listed : List Pane) (active : PaneId)
      (hpane : s.panes.get pid = some pane)
      (hmore : 1 < (s.panes.values.filter fun p => p.windowId = pane.windowId).length)
      (hwindow : s.windows.get pane.windowId = some window)
      (hactive : active =
        if window.activePane = pid then
          ((window.layout.removePane pid).1.tree.paneIds.head?.or
            ((listed.find? fun p => p.windowId = pane.windowId).map (·.id))).getD window.activePane
        else window.activePane) :
      RemovesPane s pid
        (s.relayout pane.windowId (window.layout.removePane pid).1 active (s.panes.remove pid))
        (zoomEvents pane.windowId window.sessionId (zoomedPane window.layout) none ++
          [.paneExited pid pane.windowId window.sessionId none none false pane.command])

/-- The kinds of effects, which tell the commands apart. -/
inductive Kind where
  | addSession
  | addWindow
  | addPane
  | splitPane
  | removeSession
  | removeWindow
  | removePane
  | editSession
  | renameWindow
  | dressPane
  | reportPane
  | relayout
  deriving DecidableEq

/-- What one committed operation does, when only some kinds of effects may happen. -/
inductive Effect [Host] [F32 R] (kinds : Set Kind) (lo hi : Nat) (s : SessionGraphSnapshot R) :
    SessionGraphSnapshot R → List EventData → Prop
  | addSession {s' evs} (hkind : .addSession ∈ kinds) (h : AddsSession lo hi s s' evs) :
      Effect kinds lo hi s s' evs
  | addWindow {s' evs} (hkind : .addWindow ∈ kinds) (h : AddsWindow lo hi s s' evs) :
      Effect kinds lo hi s s' evs
  | addPane {s' evs} (hkind : .addPane ∈ kinds) (h : AddsPane lo hi s s' evs) :
      Effect kinds lo hi s s' evs
  | splitPane {target s' evs} (hkind : .splitPane ∈ kinds) (h : SplitsPane lo hi s target s' evs) :
      Effect kinds lo hi s s' evs
  | removeSession {sid s' evs} (hkind : .removeSession ∈ kinds) (h : RemovesSession s sid s' evs) :
      Effect kinds lo hi s s' evs
  | removeWindow {wid s' evs} (hkind : .removeWindow ∈ kinds) (h : RemovesWindow s wid s' evs) :
      Effect kinds lo hi s s' evs
  | removePane {pid s' evs} (hkind : .removePane ∈ kinds) (h : RemovesPane s pid s' evs) :
      Effect kinds lo hi s s' evs
  | editSession {sid session edit evs} (hkind : .editSession ∈ kinds)
      (hsession : s.sessions.get sid = some session) (h : SessionEdit s sid session edit evs) :
      Effect kinds lo hi s (s.editSession sid edit) evs
  | renameWindow {wid s' evs} (hkind : .renameWindow ∈ kinds) (h : RenamesWindow s wid s' evs) :
      Effect kinds lo hi s s' evs
  | editPane {pid pane edit evs}
      (hkind : .dressPane ∈ kinds ∧ KeepsBody edit ∨ .reportPane ∈ kinds)
      (hpane : s.panes.get pid = some pane) (hkeeps : KeepsPlace edit)
      (hevs : ∀ e ∈ evs, e.IsNotice) : Effect kinds lo hi s (s.editPane pid edit) evs
  | relayout {wid s' evs} (hkind : .relayout ∈ kinds) (h : Relayouts s wid s' evs) :
      Effect kinds lo hi s s' evs

/-- Every effect counts once in the snapshot's version. -/
theorem Effect.version [Host] [F32 R] {kinds : Set Kind} {lo hi : Nat}
    {s s' : SessionGraphSnapshot R} {evs : List EventData} (h : Effect kinds lo hi s s' evs) :
    s'.version = s.version + 1 := by
  cases h with
  | addSession hkind h => cases h; rfl
  | addWindow hkind h => cases h; rfl
  | addPane hkind h => cases h; rfl
  | splitPane hkind h => cases h; rfl
  | removeSession hkind h => cases h; rfl
  | removeWindow hkind h => cases h; rfl
  | removePane hkind h => cases h; rfl
  | editSession hkind hsession h => rfl
  | renameWindow hkind h => cases h; rfl
  | editPane hkind hpane hkeeps hevs => rfl
  | relayout hkind h => cases h; rfl

end Shux
