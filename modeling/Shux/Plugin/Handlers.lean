/-
# What a handler acts on

Each method finds what it acts on from the parameters of the request, by its own fields and
fallbacks: most take a pane, or the active pane of a window, or that of a session's active
window; some take `id`, some a name, some the id of a command. The readings are given here
as the handlers have them. The other parameters, which a handler checks afterwards, are left
out.

Next to what was found stand the fields that decided it.
-/

import Shux.Plugin.Permissions

namespace Shux.Plugin

inductive RpcError where
  | invalidParams (message : Str)
  | malformedRef (param : Str) (error : RefError)
  | notFound (kind input : Str)
  | ambiguousRef (kind input : Str) (candidates : List Str) (total : Nat)

def RefKind.asStr : RefKind → Str
  | .session => "session".toList
  | .window => "window".toList
  | .pane => "pane".toList

/-- The three outcomes of a failed resolution stay apart. -/
def refErrorToRpc (error : RefError) (param : Str) : RpcError :=
  match error with
  | .malformed .. => .malformedRef param error
  | .notFound kind input => .notFound (RefKind.asStr kind) input
  | .ambiguous kind input candidates total =>
    .ambiguousRef (RefKind.asStr kind) input candidates total

def Json.typeName : Json → Str
  | .null => "null".toList
  | .bool _ => "a boolean".toList
  | .number _ => "a number".toList
  | .string _ => "a string".toList
  | .array _ => "an array".toList
  | .object _ => "an object".toList

/-- An id that may be missing, but must be a string when it is there. -/
def optionalRefParam (params : Json) (key : Str) : Except RpcError (Option Str) :=
  match params.get key with
  | none | some .null => .ok none
  | some (.string value) => .ok (some value)
  | some other => .error (.invalidParams
      (key ++ " must be a string id, got ".toList ++ other.typeName))

def requiredStr (params : Json) (key : Str) : Except RpcError Str := do
  match ← optionalRefParam params key with
  | some value => return value
  | none => .error (.invalidParams ("missing '".toList ++ key ++ "' parameter".toList))

def idKey : Str := "id".toList

def nameKey : Str := "name".toList

def targetPaneIdKey : Str := "target_pane_id".toList

def commandIdKey : Str := "command_id".toList

def missing (what : String) : RpcError :=
  .invalidParams ("missing ".toList ++ what.toList ++ " parameter".toList)

/-- The commands that run in panes: the pane of each, and the one that holds each pane. -/
structure CommandEngine where
  commands : FinMap Uuid Uuid
  active : FinMap Uuid Uuid

namespace CommandEngine

/-- The pane a command is cancelled in: the one it holds, if it holds one. -/
def cancelCommand (engine : CommandEngine) (commandId : Uuid) : Option Uuid := do
  let pane ← engine.commands.get commandId
  if engine.active.get pane = some commandId then some pane else none

end CommandEngine

/-- What handlers read: the graph, the commands, and the data of the events on the bus. -/
structure Daemon (R : Type) where
  graph : SessionGraphSnapshot R
  engine : CommandEngine
  history : List Json

inductive Target where
  | session (id : SessionId)
  | window (id : WindowId)
  | pane (id : PaneId)
  | command (id : Uuid)
deriving DecidableEq

/-- Something a handler found: the fields it was found by, and what it lies in. -/
structure Found where
  fields : List Str
  within : Target → Bool

namespace Daemon

variable {R : Type} (d : Daemon R)

/-- A window and its session. -/
def windowChain (id : WindowId) : List Target :=
  .window id :: ((d.graph.windows.get id).map fun w => Target.session w.sessionId).toList

/-- A pane, its window and its session. -/
def paneChain (id : PaneId) : List Target :=
  .pane id ::
    match d.graph.panes.get id with
    | some p => d.windowChain p.windowId
    | none => []

/-- A command and the pane it runs in, with what that lies in. -/
def commandChain (id : Uuid) : List Target :=
  .command id ::
    match d.engine.commands.get id with
    | some pane => d.paneChain ⟨pane⟩
    | none => []

def foundSession (field : Str) (id : SessionId) : Found := ⟨[field], (· == .session id)⟩

def foundWindow (field : Str) (id : WindowId) : Found := ⟨[field], (· ∈ d.windowChain id)⟩

def foundPane (field : Str) (id : PaneId) : Found := ⟨[field], (· ∈ d.paneChain id)⟩

def foundCommand (field : Str) (id : Uuid) : Found := ⟨[field], (· ∈ d.commandChain id)⟩

variable [UuidText]

def resolvePane (input param : Str) : Except RpcError PaneId :=
  (d.graph.resolvePaneRef input).mapError (refErrorToRpc · param)

def resolveWindow (input param : Str) : Except RpcError WindowId :=
  (d.graph.resolveWindowRef input).mapError (refErrorToRpc · param)

def resolveSession (input param : Str) : Except RpcError SessionId :=
  (d.graph.resolveSessionRef input).mapError (refErrorToRpc · param)

/-- The window of `window_id`, or the active window of `session_id`, with the field used. -/
def resolveWindowIdFromParams (params : Json) : Except RpcError (Str × WindowId) := do
  match ← optionalRefParam params windowIdKey with
  | some input => return (windowIdKey, ← d.resolveWindow input windowIdKey)
  | none =>
    match ← optionalRefParam params sessionIdKey with
    | none => .error (missing "'pane_id' or 'window_id' or 'session_id'")
    | some input =>
      match d.graph.sessions.get (← d.resolveSession input sessionIdKey) with
      | none => .error (.notFound (RefKind.asStr .session) input)
      | some session => return (sessionIdKey, session.activeWindow)

/-- The pane of `pane_id`, or the active pane of the window the parameters give. -/
def resolvePaneIdFromParams (params : Json) : Except RpcError (Str × PaneId) := do
  match ← optionalRefParam params paneIdKey with
  | some input => return (paneIdKey, ← d.resolvePane input paneIdKey)
  | none =>
    let (field, windowId) ← d.resolveWindowIdFromParams params
    match d.graph.windows.get windowId with
    | none => .error (.notFound (RefKind.asStr .window) windowId.uuid.display)
    | some window => return (field, window.activePane)

omit [UuidText] in
/-- The session of a name. -/
def sessionByName (name : Str) : Except RpcError SessionId :=
  match d.graph.findSessionByName name with
  | some session => .ok session.id
  | none => .error (.notFound (RefKind.asStr .session) name)

end Daemon

/-- The command of `command_id`. -/
def commandFromParams [UuidText] (params : Json) : Except RpcError (Str × Uuid) :=
  match (params.get commandIdKey).bind Json.asStr with
  | none => .error (missing "'command_id'")
  | some input =>
    match UuidText.parseStr input with
    | none => .error (.invalidParams "invalid command_id format".toList)
    | some id => .ok (input, id)

/-- The entities a caller named, all of which an event must be about. -/
structure EventScope where
  pane : Option PaneId
  window : Option WindowId
  session : Option SessionId

/-- An id in the data of an event. -/
def eventField (event : Json) (key : Str) : Option Str :=
  ((event.get "data".toList).bind fun data => data.get key).bind Json.asStr

/-- Whether an event is about an entity. -/
def eventNames (event : Json) : Target → Bool
  | .session id => eventField event sessionIdKey == some id.uuid.display
  | .window id => eventField event windowIdKey == some id.uuid.display
  | .pane id => eventField event paneIdKey == some id.uuid.display
  | .command _ => false

namespace EventScope

/-- The scope of a request. A field that is not a string is passed over. -/
def fromParams [UuidText] {R : Type} (d : Daemon R) (params : Json) :
    Except RpcError EventScope := do
  let id (key : Str) : Option Str := (params.get key).bind Json.asStr
  let pane ← (id paneIdKey).mapM fun input => d.resolvePane input paneIdKey
  let window ← (id windowIdKey).mapM fun input => d.resolveWindow input windowIdKey
  let session ← (id sessionIdKey).mapM fun input => d.resolveSession input sessionIdKey
  return ⟨pane, window, session⟩

def isAll (scope : EventScope) : Bool :=
  scope.pane.isNone && scope.window.isNone && scope.session.isNone

def admits (scope : EventScope) (event : Json) : Bool :=
  scope.isAll ||
    (scope.pane.all fun id => eventNames event (.pane id)) &&
      (scope.window.all fun id => eventNames event (.window id)) &&
      (scope.session.all fun id => eventNames event (.session id))

/-- The fields that scope the events. -/
def fields (scope : EventScope) : List Str :=
  (scope.pane.map fun _ => paneIdKey).toList ++ (scope.window.map fun _ => windowIdKey).toList ++
    (scope.session.map fun _ => sessionIdKey).toList

end EventScope

/-- How a handler finds what it acts on. -/
inductive Reading where
  | pane
  | window
  | paneId
  | swap
  | sessionId
  | windowById
  | killSession
  | renameSession
  | ensureSession
  | newSession
  | commandStatus
  | commandCancel
  | events

/-- What a handler finds, or how it refuses. -/
def Reading.find [UuidText] {R : Type} (d : Daemon R) (params : Json) :
    Reading → Except RpcError (List Found)
  | pane => do
    let (field, id) ← d.resolvePaneIdFromParams params
    return [d.foundPane field id]
  | window => do
    let (field, id) ← d.resolveWindowIdFromParams params
    return [d.foundWindow field id]
  | paneId => do
    return [d.foundPane paneIdKey (← d.resolvePane (← requiredStr params paneIdKey) paneIdKey)]
  | swap => do
    let paneInput ← requiredStr params paneIdKey
    let targetInput ← requiredStr params targetPaneIdKey
    let paneA ← d.resolvePane paneInput paneIdKey
    let paneB ← d.resolvePane targetInput targetPaneIdKey
    return [d.foundPane paneIdKey paneA, d.foundPane targetPaneIdKey paneB]
  | sessionId => do
    let id ← d.resolveSession (← requiredStr params sessionIdKey) sessionIdKey
    return [Daemon.foundSession sessionIdKey id]
  | windowById => do
    return [d.foundWindow idKey (← d.resolveWindow (← requiredStr params idKey) idKey)]
  | killSession => do
    match ← optionalRefParam params idKey with
    | some input =>
      let id ← d.resolveSession input idKey
      if d.graph.sessions.contains id then return [Daemon.foundSession idKey id]
      else .error (.notFound (RefKind.asStr .session) input)
    | none =>
      match ← optionalRefParam params nameKey with
      | some name => return [Daemon.foundSession nameKey (← d.sessionByName name)]
      | none => .error (missing "'name' or 'id'")
  | renameSession => do
    if ((params.get "new_name".toList).bind Json.asStr).isNone then .error (missing "'new_name'")
    else
      match ← optionalRefParam params nameKey with
      | some name => return [Daemon.foundSession nameKey (← d.sessionByName name)]
      | none =>
        match ← optionalRefParam params idKey with
        | some input => return [Daemon.foundSession idKey (← d.resolveSession input idKey)]
        | none => .error (missing "'name' or 'id'")
  | ensureSession =>
    let name := ((params.get nameKey).bind Json.asStr).getD "default".toList
    -- With no such session, one is made.
    match d.graph.findSessionByName name with
    | some session => .ok [Daemon.foundSession nameKey session.id]
    | none => .ok []
  | newSession => .ok []
  | commandStatus => do
    let (input, id) ← commandFromParams params
    if d.engine.commands.contains id then return [d.foundCommand commandIdKey id]
    else .error (.notFound "command".toList input)
  | commandCancel => do
    let (input, id) ← commandFromParams params
    match d.engine.cancelCommand id with
    | some _ => return [d.foundCommand commandIdKey id]
    | none => .error (.notFound "command".toList input)
  | events => do
    let scope ← EventScope.fromParams d params
    return (d.history.filter scope.admits).map fun event => ⟨scope.fields, eventNames event⟩

/-- The methods that are gated by ownership. -/
inductive Method where
  | sessionCreate | sessionKill | sessionEnsure | sessionRename | sessionSnapshot
  | windowCreate | windowEnsure | windowRename | windowFocus | windowReorder | windowKill
  | windowSnapshot
  | paneSplit | paneFocus | paneFocusDirection | paneResize | paneZoom | paneSwap | paneKill
  | paneSetTitle | paneSendKeys | paneRunCommand | paneCommandStatus | paneCommandCancel
  | paneCapture | paneWaitFor | paneSnapshot | paneGlance | paneWaitSettled | paneCheckpoint
  | paneDiffSince | paneSetSize | paneStatus | paneWaitStatus | paneWaitCommand
  | paneOutputWatch
  | eventsWatch | eventsHistory

/-- The event filters of a request. -/
def eventFilters (params : Option Json) : List Str :=
  (((params.bind fun value => value.get "filter".toList).bind Json.asArray).getD []).filterMap
    Json.asStr

/-- Watching one's own events is open to all, anything broader is not. -/
def watchSensitivity (params : Option Json) (pluginName : Str) : Sensitivity :=
  let own := "plugin.".toList ++ pluginName ++ ".".toList
  let filters := eventFilters params
  if !filters.isEmpty && filters.all own.isPrefixOf then .openToAll else .contentRead

namespace Method

def name : Method → Str
  | sessionCreate => "session.create".toList
  | sessionKill => "session.kill".toList
  | sessionEnsure => "session.ensure".toList
  | sessionRename => "session.rename".toList
  | sessionSnapshot => "session.snapshot".toList
  | windowCreate => "window.create".toList
  | windowEnsure => "window.ensure".toList
  | windowRename => "window.rename".toList
  | windowFocus => "window.focus".toList
  | windowReorder => "window.reorder".toList
  | windowKill => "window.kill".toList
  | windowSnapshot => "window.snapshot".toList
  | paneSplit => "pane.split".toList
  | paneFocus => "pane.focus".toList
  | paneFocusDirection => "pane.focus_direction".toList
  | paneResize => "pane.resize".toList
  | paneZoom => "pane.zoom".toList
  | paneSwap => "pane.swap".toList
  | paneKill => "pane.kill".toList
  | paneSetTitle => "pane.set_title".toList
  | paneSendKeys => "pane.send_keys".toList
  | paneRunCommand => "pane.run_command".toList
  | paneCommandStatus => "pane.command_status".toList
  | paneCommandCancel => "pane.command_cancel".toList
  | paneCapture => "pane.capture".toList
  | paneWaitFor => "pane.wait_for".toList
  | paneSnapshot => "pane.snapshot".toList
  | paneGlance => "pane.glance".toList
  | paneWaitSettled => "pane.wait_settled".toList
  | paneCheckpoint => "pane.checkpoint".toList
  | paneDiffSince => "pane.diff_since".toList
  | paneSetSize => "pane.set_size".toList
  | paneStatus => "pane.status".toList
  | paneWaitStatus => "pane.wait_status".toList
  | paneWaitCommand => "pane.wait_command".toList
  | paneOutputWatch => "pane.output.watch".toList
  | eventsWatch => "events.watch".toList
  | eventsHistory => "events.history".toList

/-- The policy a method is registered with. -/
def policy : Method → Policy
  | sessionCreate | sessionKill | sessionEnsure | sessionRename
  | windowCreate | windowEnsure | windowRename | windowFocus | windowReorder | windowKill
  | paneSplit | paneFocus | paneFocusDirection | paneResize | paneZoom | paneSwap | paneKill
  | paneSetTitle | paneSendKeys | paneRunCommand | paneCommandCancel | paneSetSize =>
    .fixed .ownedMutation
  | sessionSnapshot | windowSnapshot | paneCommandStatus | paneCapture | paneWaitFor
  | paneSnapshot | paneGlance | paneWaitSettled | paneCheckpoint | paneDiffSince | paneStatus
  | paneWaitStatus | paneWaitCommand | paneOutputWatch | eventsHistory => .fixed .contentRead
  | eventsWatch => .paramAware watchSensitivity

def reading : Method → Reading
  | paneSplit | paneResize | paneZoom | paneSetTitle | paneSendKeys | paneRunCommand
  | paneCapture | paneWaitFor | paneSnapshot | paneGlance | paneWaitSettled | paneCheckpoint
  | paneDiffSince | paneSetSize | paneStatus | paneWaitStatus | paneWaitCommand => .pane
  | paneFocusDirection | windowSnapshot => .window
  | paneFocus | paneKill | paneOutputWatch => .paneId
  | paneSwap => .swap
  | windowCreate | windowEnsure | sessionSnapshot => .sessionId
  | windowRename | windowFocus | windowReorder | windowKill => .windowById
  | sessionKill => .killSession
  | sessionRename => .renameSession
  | sessionEnsure => .ensureSession
  | sessionCreate => .newSession
  | paneCommandStatus => .commandStatus
  | paneCommandCancel => .commandCancel
  | eventsWatch | eventsHistory => .events

/-- What the handler of a method finds for a request, nothing when it refuses. -/
def found [UuidText] {R : Type} (method : Method) (d : Daemon R) (params : Option Json) :
    List Found :=
  (method.reading.find d (params.getD .null)).toOption.getD []

end Method

end Shux.Plugin
