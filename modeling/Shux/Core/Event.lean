/-
# Events

Every committed change of the graph is announced on a bus. The bus gives each
event the next sequence number, counting from one; here it keeps all of them, so
the published history of a run is a value. The bounded ring that answers history
queries is not part of what the graph does.
-/

import Shux.Core.Model

namespace Shux

/-- The events the session graph publishes. -/
inductive EventData where
  | sessionCreated (sessionId : SessionId) (name : Str)
  | sessionRenamed (sessionId : SessionId) (oldName newName : Str)
  | sessionKilled (sessionId : SessionId) (name : Str)
  | windowCreated (windowId : WindowId) (sessionId : SessionId) (title : Str) (index : Nat)
  | windowRenamed (windowId : WindowId) (sessionId : SessionId) (oldTitle newTitle : Str)
  | windowKilled (windowId : WindowId) (sessionId : SessionId)
  | paneCreated (paneId : PaneId) (windowId : WindowId) (sessionId : SessionId)
      (command : List Str)
  | paneFocused (paneId : PaneId) (windowId : WindowId) (sessionId : SessionId)
      (previousPaneId : Option PaneId)
  | paneZoomed (paneId : PaneId) (windowId : WindowId) (sessionId : SessionId) (zoomed : Bool)
  | paneTitleChanged (paneId : PaneId) (windowId : WindowId) (sessionId : SessionId)
      (oldTitle newTitle : Str)
  | paneExited (paneId : PaneId) (windowId : WindowId) (sessionId : SessionId)
      (exitStatus signal : Option Int) (byShux : Bool) (command : List Str)
  | paneRespawned (paneId : PaneId) (windowId : WindowId) (sessionId : SessionId)
      (command : List Str)
  | paneStatusChanged (paneId : PaneId) (windowId : WindowId) (sessionId : SessionId)
      (old new : Option StatusSummary) (seen enabled : Bool)
  deriving DecidableEq

/-- A published event. -/
structure Event where
  seq : Nat
  correlationId : Option Str
  data : EventData
  deriving DecidableEq

/-- The event bus: the next sequence number, and everything published so far. -/
structure EventBus where
  seqCounter : Nat
  published : List Event
  deriving DecidableEq

def EventBus.new : EventBus := ⟨1, []⟩

/-- Publish one event under the next sequence number. -/
def EventBus.publishWithCorrelation (bus : EventBus) (data : EventData)
    (correlationId : Option Str) : EventBus :=
  ⟨bus.seqCounter + 1, bus.published ++ [⟨bus.seqCounter, correlationId, data⟩]⟩

/-- What the published events say, oldest first. -/
def EventBus.log (bus : EventBus) : List EventData := bus.published.map (·.data)

@[simp]
theorem EventBus.log_publish (bus : EventBus) (data : EventData) (correlationId : Option Str) :
    (bus.publishWithCorrelation data correlationId).log = bus.log ++ [data] := by
  simp [log, publishWithCorrelation]

end Shux
