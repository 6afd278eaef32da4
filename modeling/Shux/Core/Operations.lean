/-
# Graph operations

The public methods of `SessionGraph`, each embedded as the source writes it: read
the current snapshot, check, edit a copy, store the copy, publish the events. A
method that returns early has stored and published nothing since; one that returns
early after touching a side map has touched it.

Draws from the host stand where the source makes them, the ones whose value is
thrown away included, so that two ways of building the same entities consume the
same supply.
-/

import Shux.Core.Graph

namespace Shux

variable {R ε : Type} [Host]

open Proc

/-- One draw from the host. -/
def draw {α : Type} (f : Nat → α) : GraphM R ε α := do
  let g ← get
  set { g with drawn := g.drawn + 1 }
  return f g.drawn

def PaneId.new : GraphM R ε PaneId := draw fun n => ⟨Host.newV4 n⟩

def WindowId.new : GraphM R ε WindowId := draw fun n => ⟨Host.newV4 n⟩

def SessionId.new : GraphM R ε SessionId := draw fun n => ⟨Host.newV4 n⟩

/-- `Session::new`, with its draws: the id, the clock, the creation sequence. -/
def newSession (name : Str) (initialWindowId : WindowId) : GraphM R ε Session := do
  let id ← SessionId.new
  let createdAt ← draw Host.systemTime
  let g ← get
  set { g with nextSessionSeq := g.nextSessionSeq + 1 }
  return Session.new id createdAt g.nextSessionSeq name initialWindowId

/-- A pane with an id of its own. -/
def newPane (windowId : WindowId) (cwd : PathBuf) (command : List Str) : GraphM R ε Pane := do
  let id ← PaneId.new
  return Pane.start id windowId cwd command

/-- The values of a map, in the order the hash map lists them. -/
def listValues {K V : Type} (m : FinMap K V) : GraphM R ε (List V) := do
  let g ← get
  return Host.iter g.drawn m.values

/-- The committed state. -/
def current : GraphM R ε (SessionGraphSnapshot R) := do
  let g ← get
  return g.state

/-- Swap in a new snapshot. Per-pane side maps never outlive the pane. -/
def SessionGraph.commit (g : SessionGraph R) (snapshot : SessionGraphSnapshot R) :
    SessionGraph R :=
  { g with
    ptyOwners := g.ptyOwners.retain fun pid _ => snapshot.panes.contains pid
    statusGenerations := g.statusGenerations.retain fun pid _ => snapshot.panes.contains pid
    state := snapshot
    commits := g.commits + 1 }

def commitSnapshot (snapshot : SessionGraphSnapshot R) : GraphM R ε Unit :=
  modify fun g => g.commit snapshot

/-- Give the bus a list of events, in order. -/
def SessionGraph.publish (g : SessionGraph R) (correlationId : Option Str)
    (events : List EventData) : SessionGraph R :=
  { g with
    eventBus := events.foldl
      (fun bus data => bus.publishWithCorrelation data correlationId) g.eventBus }

/-- Publish typed events to the bus, outside of any batch. -/
def fireAll (events : List EventData) : GraphM R ε Unit := modify fun g => g.publish none events

def fire (data : EventData) : GraphM R ε Unit := fireAll [data]

def unzoomEvent (paneId : PaneId) (windowId : WindowId) (sessionId : SessionId) : EventData :=
  .paneZoomed paneId windowId sessionId false

/-- Announce a zoom a layout change cleared. -/
def fireUnzoomed (unzoomed : Option PaneId) (windowId : WindowId) (sessionId : SessionId) :
    GraphM R ε Unit :=
  fireAll (unzoomed.map fun paneId => unzoomEvent paneId windowId sessionId).toList

/-- Refuse a request that carries a version the entity no longer has. -/
def checkVersion (resource : Str) (id : Uuid) (expectedVersion : Option Version)
    (actual : Version) : Except GraphError Unit :=
  match expectedVersion with
  | none => .ok ()
  | some expected =>
    if actual ≠ expected then .error (.versionConflict resource id expected actual) else .ok ()

/-- A copy of a snapshot, one version on. -/
def SessionGraphSnapshot.bumped (snapshot : SessionGraphSnapshot R) : SessionGraphSnapshot R :=
  { snapshot with version := snapshot.version + 1 }

/-- A pane whose program runs again. -/
def Pane.clearExit (p : Pane) : Pane :=
  { p with exitStatus := none, exitSignal := none, exitByShux := false, version := p.version + 1 }

/-- A pane whose program ended. -/
def Pane.recordExit (exit : ProgramExit) (p : Pane) : Pane :=
  { p with exitStatus := some exit.status, exitSignal := exit.signal, exitByShux := exit.byShux,
           version := p.version + 1 }

/-- A pane whose terminal published a status. -/
def Pane.recordStatus (status : PaneStatusUpdate) (p : Pane) : Pane :=
  { p with programStatus := status.summary, programStatusSeen := status.seen,
           programStatusEnabled := status.enabled, version := p.version + 1 }

/-- A copy in which one session was edited, if it is there. -/
def SessionGraphSnapshot.editSession (snapshot : SessionGraphSnapshot R) (id : SessionId)
    (edit : Session → Session) : SessionGraphSnapshot R :=
  { snapshot.bumped with sessions := snapshot.sessions.modify id edit }

/-- A copy in which one window was edited, if it is there. -/
def SessionGraphSnapshot.editWindow (snapshot : SessionGraphSnapshot R) (id : WindowId)
    (edit : Window R → Window R) : SessionGraphSnapshot R :=
  { snapshot.bumped with windows := snapshot.windows.modify id edit }

/-- A copy in which one pane was edited, if it is there. -/
def SessionGraphSnapshot.editPane (snapshot : SessionGraphSnapshot R) (id : PaneId)
    (edit : Pane → Pane) : SessionGraphSnapshot R :=
  { snapshot.bumped with panes := snapshot.panes.modify id edit }

def Pane.bump (pane : Pane) : Pane := { pane with version := pane.version + 1 }

/-- Bump the panes a list of ids names. -/
def bumpPanes (paneIds : List PaneId) (panes : FinMap PaneId Pane) : FinMap PaneId Pane :=
  paneIds.foldl (fun m pid => m.modify pid Pane.bump) panes

/-- A copy in which a window shows another layout, with other panes beside it. -/
def SessionGraphSnapshot.relayout (snapshot : SessionGraphSnapshot R) (windowId : WindowId)
    (layout : WindowLayout R) (activePane : PaneId) (panes : FinMap PaneId Pane) :
    SessionGraphSnapshot R :=
  { snapshot.bumped with
    windows := snapshot.windows.modify windowId fun w =>
      { w with layout := layout, activePane := activePane, version := w.version + 1 }
    panes := panes }

/-- The ids of the panes of a window. -/
def windowPaneIds (panes : FinMap PaneId Pane) (windowId : WindowId) : List PaneId :=
  (panes.values.filter fun p => p.windowId = windowId).map (·.id)

/-- The name a window gets when none is given: the title its first pane starts
with, unique in the session as `name-2`, `name-3`, … -/
def SessionGraphSnapshot.defaultWindowTitle (snapshot : SessionGraphSnapshot R)
    (sessionId : SessionId) (command : List Str) (cwd : PathBuf) : GraphM R ε Str := do
  let windowId ← WindowId.new
  let paneId ← PaneId.new
  let base := titleBase (Pane.withCommand paneId windowId cwd command).title
  return (snapshot.searchWindowTitle sessionId base).getD base

namespace SessionGraph

/-- Create a session with one window of one pane that runs `command`. -/
def createSessionWithCommand (name : Str) (cwd : PathBuf) (command : List Str) :
    GraphM R GraphError SessionId := do
  require (validateSessionName name)
  let current ← current
  if current.sessionNameExists name then
    throw (.sessionNameExists name)
  let probe ← SessionId.new
  require (checkSessionCapacity current probe command cwd)
  let snapshot := current.bumped
  let paneId ← PaneId.new
  let windowId ← WindowId.new
  let pane ← newPane windowId cwd command
  let pane := { pane with id := paneId }
  let noSession ← SessionId.new
  let title ← current.defaultWindowTitle noSession command pane.cwd
  let placeholder ← SessionId.new
  let ownId ← WindowId.new
  let window := { Window.new ownId placeholder title paneId with id := windowId }
  let session ← newSession name windowId
  let sessionId := session.id
  let window := { window with sessionId := sessionId }
  let snapshot :=
    { snapshot with
      panes := snapshot.panes.insert paneId pane
      windows := snapshot.windows.insert windowId window
      sessions := snapshot.sessions.insert sessionId session }
  commitSnapshot snapshot
  fire (.sessionCreated sessionId name)
  fire (.windowCreated windowId sessionId title 1)
  fire (.paneCreated paneId windowId sessionId command)
  return sessionId

def destroySession (id : SessionId) (expectedVersion : Option Version) :
    GraphM R GraphError Unit := do
  let current ← current
  let session ← okOr (current.sessions.get id) (.sessionNotFound id)
  require (checkVersion "session".toList id.uuid expectedVersion session.version)
  let snapshot := current.bumped
  let windowIds := session.windows
  let listed ← listValues snapshot.panes
  let panesToKill := listed.filter fun p => windowIds.contains p.windowId
  let snapshot :=
    { snapshot with
      panes := snapshot.panes.removeAll (panesToKill.map (·.id))
      windows := snapshot.windows.removeAll windowIds
      sessions := snapshot.sessions.remove id }
  commitSnapshot snapshot
  fireAll (panesToKill.map fun p => .paneExited p.id p.windowId id none none false p.command)
  fireAll (windowIds.map fun wid => .windowKilled wid id)
  fire (.sessionKilled id session.name)

def renameSession (id : SessionId) (newName : Str) (expectedVersion : Option Version) :
    GraphM R GraphError Unit := do
  require (validateSessionName newName)
  let current ← current
  let session ← okOr (current.sessions.get id) (.sessionNotFound id)
  require (checkVersion "session".toList id.uuid expectedVersion session.version)
  if current.sessionNameExists newName then
    throw (.sessionNameExists newName)
  commitSnapshot <| current.editSession id fun s =>
    { s with name := newName, version := s.version + 1 }
  fire (.sessionRenamed id session.name newName)

/-- Edit a session that exists: the shared body of the tag and theme setters. -/
def setSession (id : SessionId) (edit : Session → Session) : GraphM R GraphError Unit := do
  let current ← current
  if !current.sessions.contains id then
    throw (.sessionNotFound id)
  commitSnapshot <| current.editSession id fun s => { edit s with version := (edit s).version + 1 }

def setSessionTag (id : SessionId) (key value : Str) : GraphM R GraphError Unit :=
  setSession id fun s => { s with tags := s.tags.insert key value }

def setSessionTheme (id : SessionId) (theme : Option ThemeRef) : GraphM R GraphError Unit :=
  setSession id fun s => { s with theme := theme }

/-- Create a window and persist `command` on its initial pane. -/
def createWindowWithCommand (sessionId : SessionId) (title : Str) (cwd : PathBuf)
    (command : List Str) : GraphM R GraphError WindowId := do
  let title ← require (validateWindowTitle title)
  let current ← current
  if !current.sessions.contains sessionId then
    throw (.sessionNotFound sessionId)
  if current.windowNameExistsInSession sessionId title then
    throw (.windowNameConflict title)
  require (checkSessionCapacity current sessionId command cwd)
  let snapshot := current.bumped
  let paneId ← PaneId.new
  let windowId ← WindowId.new
  let pane ← newPane windowId cwd command
  let pane := { pane with id := paneId }
  let ownId ← WindowId.new
  let window := { Window.new ownId sessionId title paneId with id := windowId }
  let sessions := snapshot.sessions.modify sessionId fun s =>
    { s with windows := s.windows ++ [windowId], activeWindow := windowId,
             version := s.version + 1 }
  let eventIndex :=
    match sessions.get sessionId with
    | some s => s.windows.length % 2 ^ 32
    | none => 0
  let snapshot :=
    { snapshot with
      panes := snapshot.panes.insert paneId pane
      windows := snapshot.windows.insert windowId window
      sessions := sessions }
  commitSnapshot snapshot
  fire (.windowCreated windowId sessionId title eventIndex)
  fire (.paneCreated paneId windowId sessionId command)
  return windowId

def destroyWindow (id : WindowId) (expectedVersion : Option Version) :
    GraphM R GraphError Unit := do
  let current ← current
  let window ← okOr (current.windows.get id) (.windowNotFound id)
  require (checkVersion "window".toList id.uuid expectedVersion window.version)
  let session ← okOr (current.sessions.get window.sessionId) (.sessionNotFound window.sessionId)
  if session.windows.length ≤ 1 then
    throw .lastWindow
  let killedSessionId := window.sessionId
  let snapshot := current.bumped
  let listed ← listValues snapshot.panes
  let panesToKill := listed.filter fun p => p.windowId = id
  let snapshot :=
    { snapshot with
      panes := snapshot.panes.removeAll (panesToKill.map (·.id))
      sessions := snapshot.sessions.modify killedSessionId fun s =>
        let windows := s.windows.filter fun wid => wid ≠ id
        -- The source indexes `windows[0]`: more than one window was counted above.
        { s with
          windows := windows
          activeWindow := if s.activeWindow = id then windows.headD id else s.activeWindow
          version := s.version + 1 }
      windows := snapshot.windows.remove id }
  commitSnapshot snapshot
  fireAll (panesToKill.map fun p => .paneExited p.id id killedSessionId none none false p.command)
  fire (.windowKilled id killedSessionId)

def renameWindow (id : WindowId) (newTitle : Str) (expectedVersion : Option Version) :
    GraphM R GraphError Unit := do
  let newTitle ← require (validateWindowTitle newTitle)
  let current ← current
  let window ← okOr (current.windows.get id) (.windowNotFound id)
  require (checkVersion "window".toList id.uuid expectedVersion window.version)
  let sessionId := window.sessionId
  let session ← okOr (current.sessions.get sessionId) (.sessionNotFound sessionId)
  if session.windows.any fun wid =>
      wid ≠ id && (current.windows.get wid).any fun w => w.title = newTitle then
    throw (.windowNameConflict newTitle)
  commitSnapshot <| current.editWindow id fun w =>
    { w with title := newTitle, version := w.version + 1 }
  fire (.windowRenamed id sessionId window.title newTitle)

/-- Activate a window. Returns the previously active one. -/
def focusWindow (id : WindowId) (expectedVersion : Option Version) :
    GraphM R GraphError (Option WindowId) := do
  let current ← current
  let window ← okOr (current.windows.get id) (.windowNotFound id)
  require (checkVersion "window".toList id.uuid expectedVersion window.version)
  let sessionId := window.sessionId
  let session ← okOr (current.sessions.get sessionId) (.sessionNotFound sessionId)
  if !session.windows.contains id then
    throw (.windowNotFound id)
  let previous := if session.activeWindow ≠ id then some session.activeWindow else none
  commitSnapshot <| current.editSession sessionId fun s =>
    { s with activeWindow := id, version := s.version + 1 }
  return previous

/-- Move a window to a new index within its session. -/
def reorderWindow (id : WindowId) (newIndex : Nat) (expectedVersion : Option Version) :
    GraphM R GraphError Unit := do
  let current ← current
  let window ← okOr (current.windows.get id) (.windowNotFound id)
  require (checkVersion "window".toList id.uuid expectedVersion window.version)
  let sessionId := window.sessionId
  let session ← okOr (current.sessions.get sessionId) (.sessionNotFound sessionId)
  let windowCount := session.windows.length
  if newIndex ≥ windowCount then
    throw (.windowIndexOutOfRange newIndex windowCount)
  commitSnapshot <| current.editSession sessionId fun s =>
    match s.windows.idxOf? id with
    | some currentIndex =>
      { s with
        windows := (s.windows.eraseIdx currentIndex).insertIdx newIndex id
        version := s.version + 1 }
    | none => s

/-- Create a pane that no layout shows. -/
def createPane (windowId : WindowId) (cwd : PathBuf) (command : List Str) :
    GraphM R GraphError PaneId := do
  let current ← current
  let window ← okOr (current.windows.get windowId) (.windowNotFound windowId)
  let sessionId := window.sessionId
  require (checkSessionCapacity current sessionId command cwd)
  let pane ← newPane windowId cwd command
  let paneId := pane.id
  commitSnapshot { current.bumped with panes := current.panes.insert paneId pane }
  fire (.paneCreated paneId windowId sessionId command)
  return paneId

/-- Find a pane's window. -/
def findPaneWindow (paneId : PaneId) :
    GraphM R GraphError (SessionGraphSnapshot R × WindowId) := do
  let current ← current
  let pane ← okOr (current.panes.get paneId) (.paneNotFound paneId)
  return (current, pane.windowId)

/-- PTY incarnation `incarnation` now runs this pane, unless a newer one already
claimed it. A pane already marked exited is running again. -/
def claimPanePty (id : PaneId) (incarnation : Nat) : GraphM R GraphError Bool := do
  let current ← current
  let pane ← okOr (current.panes.get id) (.paneNotFound id)
  let g ← get
  if (g.ptyOwners.get id).any fun owner => owner > incarnation then
    return false
  set { g with ptyOwners := g.ptyOwners.insert id incarnation }
  if pane.exitStatus.isNone then
    return true
  let windowId := pane.windowId
  let sessionId ← okOr (current.sessionOf windowId) (.windowNotFound windowId)
  commitSnapshot (current.editPane id Pane.clearExit)
  fire (.paneRespawned id windowId sessionId pane.command)
  return true

def setPaneExit (id : PaneId) (exit : ProgramExit) : GraphM R GraphError Unit := do
  let current ← current
  let pane ← okOr (current.panes.get id) (.paneNotFound id)
  let windowId := pane.windowId
  let sessionId ← okOr (current.sessionOf windowId) (.windowNotFound windowId)
  commitSnapshot (current.editPane id (Pane.recordExit exit))
  fire (.paneExited id windowId sessionId (some exit.status) exit.signal exit.byShux pane.command)

def setPaneExitStatus (id : PaneId) (exitStatus : Int) : GraphM R GraphError Unit :=
  setPaneExit id (.code exitStatus)

/-- Record a pane's status as published by its terminal. A publication at or below
the last accepted generation is stale. -/
def setPaneProgramStatus (id : PaneId) (status : PaneStatusUpdate) :
    GraphM R GraphError Unit := do
  let current ← current
  let pane ← okOr (current.panes.get id) (.paneNotFound id)
  -- Sealed: nothing follows `pane.exited` until a respawn clears the exit status.
  if pane.exitStatus.isSome then
    return ()
  let windowId := pane.windowId
  let sessionId ← okOr (current.sessionOf windowId) (.windowNotFound windowId)
  let g ← get
  let last := (g.statusGenerations.get id).getD 0
  if status.generation ≤ last then
    -- `entry().or_insert(0)` leaves an entry behind even when the publication is stale.
    set { g with statusGenerations := g.statusGenerations.insert id last }
    return ()
  set { g with statusGenerations := g.statusGenerations.insert id status.generation }
  if pane.programStatus = status.summary && pane.programStatusSeen = status.seen &&
      pane.programStatusEnabled = status.enabled then
    return ()
  commitSnapshot (current.editPane id (Pane.recordStatus status))
  fire (.paneStatusChanged id windowId sessionId pane.programStatus status.summary status.seen
    status.enabled)

/-- A PTY task's exit, applied only if `incarnation` still owns the pane. The final
status commits first under the same check. -/
def setPaneExitStatusOwned (id : PaneId) (exit : ProgramExit) (incarnation : Nat)
    (finalStatus : Option PaneStatusUpdate) : GraphM R GraphError Unit := do
  let g ← get
  if g.ptyOwners.get id ≠ some incarnation then
    return ()
  match finalStatus with
  | some status => setPaneProgramStatus id status
  | none => pure ()
  setPaneExit id exit

/-- Edit a pane that exists: the shared body of the tag and theme setters. -/
def setPane (id : PaneId) (edit : Pane → Pane) : GraphM R GraphError Unit := do
  let current ← current
  if !current.panes.contains id then
    throw (.paneNotFound id)
  commitSnapshot <| current.editPane id fun p => (edit p).bump

def setPaneTag (id : PaneId) (key value : Str) : GraphM R GraphError Unit :=
  setPane id fun p => { p with tags := p.tags.insert key value }

def setPaneTheme (id : PaneId) (theme : Option ThemeRef) : GraphM R GraphError Unit :=
  setPane id fun p => { p with theme := theme }

/-- Set or clear the manual title for a pane, and optionally toggle auto-title. -/
def setPaneTitle (id : PaneId) (title : Option Str) (auto : Option Bool) :
    GraphM R GraphError Unit := do
  let current ← current
  let pane ← okOr (current.panes.get id) (.paneNotFound id)
  let windowId := pane.windowId
  let sessionId ← okOr (current.sessionOf windowId) (.windowNotFound windowId)
  let edit (p : Pane) : Pane :=
    let p := match auto with
      | some a => p.setAutoTitle a
      | none => p
    (p.setManualTitle title).bump
  let newTitle := (edit pane).title
  commitSnapshot (current.editPane id edit)
  if pane.title ≠ newTitle then
    fire (.paneTitleChanged id windowId sessionId pane.title newTitle)

/-- Set the OSC-derived title for a pane. -/
def setPaneOscTitle (id : PaneId) (title : Str) : GraphM R GraphError Unit := do
  let current ← current
  let pane ← okOr (current.panes.get id) (.paneNotFound id)
  let windowId := pane.windowId
  let sessionId ← okOr (current.sessionOf windowId) (.windowNotFound windowId)
  let already := pane.oscTitle = some title
  let manualActive := pane.manualTitle.isSome
  if already && (manualActive || !pane.autoTitle) then
    return ()
  let edit (p : Pane) : Pane := (p.setOscTitle title).1.bump
  let changed := (pane.setOscTitle title).2
  let newTitle := (edit pane).title
  commitSnapshot (current.editPane id edit)
  if changed then
    fire (.paneTitleChanged id windowId sessionId pane.title newTitle)

variable [F32 R]

def destroyPane (id : PaneId) (expectedVersion : Option Version) :
    GraphM R GraphError Unit := do
  let current ← current
  let pane ← okOr (current.panes.get id) (.paneNotFound id)
  require (checkVersion "pane".toList id.uuid expectedVersion pane.version)
  let windowPaneCount := (current.panes.values.filter fun p => p.windowId = pane.windowId).length
  if windowPaneCount ≤ 1 then
    throw .lastPane
  let windowId := pane.windowId
  let window ← okOr (current.windows.get windowId) (.windowNotFound windowId)
  let sessionId := window.sessionId
  let panes := current.panes.remove id
  let unzoomed := zoomedPane window.layout
  let layout := (window.layout.removePane id).1
  let listed ← listValues panes
  -- A remaining pane of the layout tree first, then any of the window's panes.
  let newActive := layout.tree.paneIds.head?.or
    ((listed.find? fun p => p.windowId = windowId).map (·.id))
  let activePane :=
    if window.activePane = id then newActive.getD window.activePane else window.activePane
  commitSnapshot (current.relayout windowId layout activePane panes)
  fireUnzoomed unzoomed windowId sessionId
  fire (.paneExited id windowId sessionId none none false pane.command)

/-- Split a pane: a new pane alongside the target in the layout tree. -/
def splitPaneWithCommand (targetPane : PaneId) (direction : Direction) (ratio : R)
    (command : List Str) : GraphM R GraphError PaneId := do
  let (current, windowId) ← findPaneWindow targetPane
  let target ← okOr (current.panes.get targetPane) (.paneNotFound targetPane)
  let window ← okOr (current.windows.get windowId) (.windowNotFound windowId)
  require (checkSessionCapacity current window.sessionId command target.cwd)
  let newPane ← newPane windowId target.cwd command
  let newPaneId := newPane.id
  let unzoomed := zoomedPane window.layout
  let (layout, ok) := window.layout.splitPane targetPane newPaneId direction ratio
  if !ok then
    throw (.layoutError "split_pane failed".toList)
  commitSnapshot
    (current.relayout windowId layout newPaneId (current.panes.insert newPaneId newPane))
  fireUnzoomed unzoomed windowId window.sessionId
  fire (.paneCreated newPaneId windowId window.sessionId command)
  return newPaneId

/-- Focus a pane. Returns the previously active pane, if another one. -/
def focusPane (id : PaneId) : GraphM R GraphError (Option PaneId) := do
  let (current, windowId) ← findPaneWindow id
  let window ← okOr (current.windows.get windowId) (.windowNotFound windowId)
  let previous := if window.activePane ≠ id then some window.activePane else none
  let sessionId := window.sessionId
  -- Focusing a pane a zoom hides unzooms.
  let unzoomed := (zoomedPane window.layout).filter fun zoomed => zoomed ≠ id
  let layout :=
    match unzoomed with
    | some zoomed => window.layout.toggleZoom zoomed
    | none => window.layout
  let panes :=
    if unzoomed.isSome then
      current.panes.mapKV fun _ p => if p.windowId = windowId then p.bump else p
    else current.panes
  commitSnapshot (current.relayout windowId layout id panes)
  fireUnzoomed unzoomed windowId sessionId
  fire (.paneFocused id windowId sessionId previous)
  return previous

/-- Focus the nearest pane in a cardinal direction. -/
def focusPaneDirection (windowId : WindowId) (direction : NavDirection) (viewport : Rect) :
    GraphM R GraphError (Option PaneId) := do
  let current ← current
  let window ← okOr (current.windows.get windowId) (.windowNotFound windowId)
  match window.layout.tree.directionalFocus window.activePane direction viewport with
  | some target =>
    let _ ← focusPane target
    return some target
  | none => return none

/-- Resize a pane by adjusting the ratio of its nearest ancestor split. -/
def resizePane (id : PaneId) (direction : Direction) (delta : R)
    (expectedVersion : Option Version) : GraphM R GraphError Unit := do
  let (current, windowId) ← findPaneWindow id
  let pane ← okOr (current.panes.get id) (.paneNotFound id)
  require (checkVersion "pane".toList id.uuid expectedVersion pane.version)
  let window ← okOr (current.windows.get windowId) (.windowNotFound windowId)
  let unzoomed := zoomedPane window.layout
  let sessionId := window.sessionId
  let layout := window.layout.unzoom
  match layout.tree.resizePane id direction delta with
  | some newTree =>
    let panes := bumpPanes (windowPaneIds current.panes windowId) current.panes
    commitSnapshot
      (current.relayout windowId { layout with tree := newTree } window.activePane panes)
    fireUnzoomed unzoomed windowId sessionId
  | none =>
    -- No matching split direction: not an error, just a no-op.
    return ()

/-- Toggle zoom on a pane. Returns whether the pane is now zoomed. -/
def zoomPane (id : PaneId) (expectedVersion : Option Version) : GraphM R GraphError Bool := do
  let (current, windowId) ← findPaneWindow id
  let pane ← okOr (current.panes.get id) (.paneNotFound id)
  require (checkVersion "pane".toList id.uuid expectedVersion pane.version)
  let window ← okOr (current.windows.get windowId) (.windowNotFound windowId)
  let sessionId := window.sessionId
  let wasZoomed := zoomedPane window.layout
  let layout := window.layout.toggleZoom id
  let nowZoomed := zoomedPane layout
  if wasZoomed = nowZoomed then
    return nowZoomed.isSome
  let isZoomed := nowZoomed.isSome
  -- A zoom shows only `id`, so input goes to it.
  let previousFocus := if isZoomed && window.activePane ≠ id then some window.activePane else none
  let activePane := if previousFocus.isSome then id else window.activePane
  let panes := bumpPanes (windowPaneIds current.panes windowId) current.panes
  commitSnapshot (current.relayout windowId layout activePane panes)
  fireUnzoomed wasZoomed windowId sessionId
  fireAll (nowZoomed.map fun paneId => .paneZoomed paneId windowId sessionId true).toList
  fireAll (previousFocus.map fun previous =>
    .paneFocused id windowId sessionId (some previous)).toList
  return isZoomed

/-- Zoom `id` when `focused` is its window's focused pane and nothing there is
zoomed; otherwise change nothing. -/
def zoomPaneIfFocused (id focused : PaneId) : GraphM R GraphError Bool := do
  let (current, windowId) ← findPaneWindow id
  let window ← okOr (current.windows.get windowId) (.windowNotFound windowId)
  if window.activePane ≠ focused || window.layout.isZoomed || window.layout.tree.paneCount < 2 then
    return false
  zoomPane id none

/-- Swap two panes in the layout tree. The version checked is that of `a` alone. -/
def swapPanes (a b : PaneId) (expectedVersion : Option Version) : GraphM R GraphError Unit := do
  if a = b then
    throw .paneSwapSelf
  let current ← current
  let paneA ← okOr (current.panes.get a) (.paneNotFound a)
  let paneB ← okOr (current.panes.get b) (.paneNotFound b)
  if paneA.windowId ≠ paneB.windowId then
    throw .paneCrossWindow
  require (checkVersion "pane".toList a.uuid expectedVersion paneA.version)
  let windowId := paneA.windowId
  let window ← okOr (current.windows.get windowId) (.windowNotFound windowId)
  let unzoomed := zoomedPane window.layout
  let sessionId := window.sessionId
  let layout := window.layout.unzoom
  match layout.tree.swapPanes a b with
  | some newTree =>
    let panes := bumpPanes (windowPaneIds current.panes windowId) current.panes
    commitSnapshot
      (current.relayout windowId { layout with tree := newTree } window.activePane panes)
    fireUnzoomed unzoomed windowId sessionId
  | none => throw (.layoutError "swap_panes failed".toList)

/-- Destroy a pane, then its window if that leaves it empty, then its session if
that leaves it empty. -/
def destroyPaneAndEmptyParents (id : PaneId) : GraphM R GraphError Unit := do
  let outcome ← tryCatch (do destroyPane id none; return true) fun e =>
    if e = .lastPane then return false else throw e
  if outcome then
    return ()
  let (current, windowId) ← findPaneWindow id
  let sessionId ← okOr (current.sessionOf windowId) (.windowNotFound windowId)
  tryCatch (destroyWindow windowId none) fun e =>
    if e = .lastWindow then destroySession sessionId none else throw e

end SessionGraph
end Shux
