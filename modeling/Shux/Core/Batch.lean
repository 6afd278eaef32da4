/-
# Batches

`applyBatch` stages a list of operations on one copy of the snapshot and commits
the copy once, when every operation has been accepted. The staged operations are
a second implementation of session creation, window creation and splitting: they
edit the copy in place and hand back the events that will fire on commit.

An operation may name the session or pane an earlier one produced by its index in
the batch.
-/

import Shux.Core.Operations

namespace Shux

/-- A session, by id or by the operation that produced it. -/
inductive SessionRef where
  | id (id : SessionId)
  | backRef (opIndex : Nat)
  deriving DecidableEq

/-- A pane, by id or by the operation that produced it. -/
inductive PaneRef where
  | id (id : PaneId)
  | backRef (opIndex : Nat)
  deriving DecidableEq

/-- A single operation in a batch. -/
inductive Op (R : Type) where
  | createSession (name : Option Str) (cwd : PathBuf) (initialCommand : List Str)
      (initialWindowTitle : Option Str)
  | createWindow (session : SessionRef) (title : Str) (cwd : Option PathBuf)
      (initialCommand : List Str)
  | splitPane (target : PaneRef) (direction : Direction) (ratio : R) (command : List Str)
      (cwd : Option PathBuf)

/-- What an operation produced. -/
structure OpOutput where
  opIndex : Nat
  sessionId : Option SessionId
  windowId : Option WindowId
  paneId : Option PaneId
  deriving DecidableEq

/-- The result of a batch that was applied. -/
structure BatchResult where
  outputs : List OpOutput
  correlationId : Str
  lastEventSeq : Nat
  deriving DecidableEq

/-- Errors specific to batch application. -/
inductive BatchError where
  | backRefOutOfRange (opIndex refOp prior : Nat)
  | backRefWrongType (opIndex refOp : Nat) (expected : Str)
  | opFailed (opIndex : Nat) (source : GraphError)
  | empty
  deriving DecidableEq

variable {R ε : Type}

/-- Resolve a session reference among the outputs so far. -/
def resolveSessionRef (sref : SessionRef) (outputs : List OpOutput) (opIndex : Nat) :
    Except BatchError SessionId :=
  match sref with
  | .id id => .ok id
  | .backRef refOp =>
    match outputs[refOp]? with
    | none => .error (.backRefOutOfRange opIndex refOp outputs.length)
    | some prior =>
      match prior.sessionId with
      | some id => .ok id
      | none => .error (.backRefWrongType opIndex refOp "session_id".toList)

/-- Resolve a pane reference among the outputs so far. -/
def resolvePaneRef (pref : PaneRef) (outputs : List OpOutput) (opIndex : Nat) :
    Except BatchError PaneId :=
  match pref with
  | .id id => .ok id
  | .backRef refOp =>
    match outputs[refOp]? with
    | none => .error (.backRefOutOfRange opIndex refOp outputs.length)
    | some prior =>
      match prior.paneId with
      | some id => .ok id
      | none => .error (.backRefWrongType opIndex refOp "pane_id".toList)

variable [Host]

open Proc

/-- Stage a session creation against `snapshot`. -/
def stageCreateSession (snapshot : SessionGraphSnapshot R) (name : Str) (cwd : PathBuf)
    (initialCommand : List Str) (initialWindowTitle : Option Str) :
    GraphM R GraphError
      (SessionGraphSnapshot R × SessionId × WindowId × PaneId × List EventData) := do
  require (validateSessionName name)
  if snapshot.sessionNameExists name then
    throw (.sessionNameExists name)
  let probe ← SessionId.new
  require (checkSessionCapacity snapshot probe initialCommand cwd)
  let snapshot := snapshot.bumped
  let paneId ← PaneId.new
  let windowId ← WindowId.new
  let pane ← newPane windowId cwd initialCommand
  let pane := { pane with id := paneId }
  -- `none` and the empty title both mean "unspecified".
  let title ← (match initialWindowTitle with
    | some (c :: raw) => require (validateWindowTitle (c :: raw))
    | _ => do
      let noSession ← SessionId.new
      snapshot.defaultWindowTitle noSession initialCommand pane.cwd)
  let placeholder ← SessionId.new
  let ownId ← WindowId.new
  let window := { Window.new ownId placeholder title paneId with id := windowId }
  let session ← newSession name windowId
  let sessionId := session.id
  let window := { window with sessionId := sessionId }
  let snapshot :=
    { snapshot with
      panes := snapshot.panes.insert paneId pane
      windows := snapshot.windows.insert windowId window
      sessions := snapshot.sessions.insert sessionId session }
  let events : List EventData :=
    [.sessionCreated sessionId name, .windowCreated windowId sessionId title 1,
      .paneCreated paneId windowId sessionId initialCommand]
  return (snapshot, sessionId, windowId, paneId, events)

/-- Stage a window creation against `snapshot`. -/
def stageCreateWindow (snapshot : SessionGraphSnapshot R) (sessionId : SessionId) (title : Str)
    (cwd : PathBuf) (initialCommand : List Str) :
    GraphM R GraphError (SessionGraphSnapshot R × WindowId × PaneId × List EventData) := do
  if !snapshot.sessions.contains sessionId then
    throw (.sessionNotFound sessionId)
  let title ← require (validateWindowTitle title)
  if snapshot.windowNameExistsInSession sessionId title then
    throw (.windowNameConflict title)
  require (checkSessionCapacity snapshot sessionId initialCommand cwd)
  let snapshot := snapshot.bumped
  let paneId ← PaneId.new
  let windowId ← WindowId.new
  let pane ← newPane windowId cwd initialCommand
  let pane := { pane with id := paneId }
  let ownId ← WindowId.new
  let window := { Window.new ownId sessionId title paneId with id := windowId }
  let sessions := snapshot.sessions.modify sessionId fun s =>
    { s with windows := s.windows ++ [windowId], activeWindow := windowId,
             version := s.version + 1 }
  let eventIndex :=
    match sessions.get sessionId with
    | some s => s.windows.length % 2 ^ 32
    | none => 0
  let snapshot :=
    { snapshot with
      panes := snapshot.panes.insert paneId pane
      windows := snapshot.windows.insert windowId window
      sessions := sessions }
  let events : List EventData :=
    [.windowCreated windowId sessionId title eventIndex,
      .paneCreated paneId windowId sessionId initialCommand]
  return (snapshot, windowId, paneId, events)

variable [F32 R]

/-- Stage a split against `snapshot`. Without a cwd the new pane takes the target's. -/
def stageSplitPane (snapshot : SessionGraphSnapshot R) (targetPane : PaneId)
    (direction : Direction) (ratio : R) (command : List Str) (cwd : Option PathBuf) :
    GraphM R GraphError
      (SessionGraphSnapshot R × PaneId × WindowId × SessionId × List EventData) := do
  let target ← okOr (snapshot.panes.get targetPane) (.paneNotFound targetPane)
  let windowId := target.windowId
  let paneCwd := cwd.getD target.cwd
  let window ← okOr (snapshot.windows.get windowId) (.windowNotFound windowId)
  let sessionId := window.sessionId
  require (checkSessionCapacity snapshot sessionId command paneCwd)
  let newPane ← newPane windowId paneCwd command
  let newPaneId := newPane.id
  let unzoomed := zoomedPane window.layout
  let (layout, ok) := window.layout.splitPane targetPane newPaneId direction ratio
  if !ok then
    throw (.layoutError "split_pane failed".toList)
  let snapshot :=
    snapshot.relayout windowId layout newPaneId (snapshot.panes.insert newPaneId newPane)
  let events : List EventData :=
    (unzoomed.map fun paneId => unzoomEvent paneId windowId sessionId).toList ++
      [.paneCreated newPaneId windowId sessionId command]
  return (snapshot, newPaneId, windowId, sessionId, events)

def sessionNameCandidate (n : Nat) : Str := "session-".toList ++ Nat.toDigits 10 n

/-- The name search of an unnamed session: `session-N` from one past the number of
sessions on. One more candidate than there are sessions is always enough. -/
def freeSessionName (snapshot : SessionGraphSnapshot R) : Str :=
  let start := snapshot.sessions.size + 1
  (FirstFree.search snapshot.sessionNameExists sessionNameCandidate start start).getD []

/-- What a batch has staged so far. -/
structure Staged (R : Type) where
  snapshot : SessionGraphSnapshot R
  outputs : List OpOutput
  events : List EventData

/-- One turn of the loop of `applyBatch`. -/
def stageOp (staged : Staged R) (opIndex : Nat) (op : Op R) :
    GraphM R BatchError (Staged R) := do
  match op with
  | .createSession name cwd initialCommand initialWindowTitle =>
    let resolvedName := name.getD (freeSessionName staged.snapshot)
    let (snapshot, sid, wid, pid, events) ←
      mapError (.opFailed opIndex)
        (stageCreateSession staged.snapshot resolvedName cwd initialCommand initialWindowTitle)
    return ⟨snapshot, staged.outputs ++ [⟨opIndex, some sid, some wid, some pid⟩],
      staged.events ++ events⟩
  | .createWindow session title cwd initialCommand =>
    let sessionId ← require (resolveSessionRef session staged.outputs opIndex)
    let listed ← listValues staged.snapshot.panes
    let inherited := (listed.find? fun p =>
      (staged.snapshot.windows.get p.windowId).any fun w => w.sessionId = sessionId).map (·.cwd)
    let cwdResolved := (cwd.or inherited).getD (PathBuf.ofStr ".".toList)
    let (snapshot, wid, pid, events) ←
      mapError (.opFailed opIndex)
        (stageCreateWindow staged.snapshot sessionId title cwdResolved initialCommand)
    return ⟨snapshot, staged.outputs ++ [⟨opIndex, some sessionId, some wid, some pid⟩],
      staged.events ++ events⟩
  | .splitPane target direction ratio command cwd =>
    let targetPane ← require (resolvePaneRef target staged.outputs opIndex)
    let (snapshot, newPid, wid, sid, events) ←
      mapError (.opFailed opIndex)
        (stageSplitPane staged.snapshot targetPane direction ratio command cwd)
    return ⟨snapshot, staged.outputs ++ [⟨opIndex, some sid, some wid, some newPid⟩],
      staged.events ++ events⟩

/-- The loop of `applyBatch`, from the operation with index `opIndex` on. -/
def stageOps (staged : Staged R) (opIndex : Nat) : List (Op R) → GraphM R BatchError (Staged R)
  | [] => return staged
  | op :: rest => do
    let staged ← stageOp staged opIndex op
    stageOps staged (opIndex + 1) rest

/-- `apply-<uuid>`. -/
def newCorrelationId : GraphM R ε Str := draw fun n => "apply-".toList ++ (Host.newV4 n).display

/-- Publish the events of a batch under its correlation id. Returns the last one's
sequence number, 0 when there is none. -/
def fireWithCorrelation (events : List EventData) (correlationId : Str) : GraphM R ε Nat := do
  modify fun g => g.publish (some correlationId) events
  let g ← get
  return if events.isEmpty then 0 else g.eventBus.seqCounter - 1

/-- Apply a batch of operations atomically. -/
def SessionGraph.applyBatch (ops : List (Op R)) : GraphM R BatchError BatchResult := do
  if ops.isEmpty then
    throw .empty
  let snapshot ← current
  let staged ← stageOps ⟨snapshot, [], []⟩ 0 ops
  commitSnapshot staged.snapshot
  let correlationId ← newCorrelationId
  let lastEventSeq ← fireWithCorrelation staged.events correlationId
  return ⟨staged.outputs, correlationId, lastEventSeq⟩

end Shux
