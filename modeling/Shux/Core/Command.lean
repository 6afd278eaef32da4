/-
# Commands and runs

The graph task takes one command after the other and answers each. A run is a
list of commands from the empty graph; clients racing each other are runs that
interleave their commands.
-/

import Shux.Core.Batch

namespace Shux

/-- The commands of the graph task. -/
inductive GraphCommand (R : Type) where
  | createSession (name : Str) (cwd : PathBuf) (initialCommand : List Str)
  | destroySession (id : SessionId) (expectedVersion : Option Version)
  | renameSession (id : SessionId) (newName : Str) (expectedVersion : Option Version)
  | createWindow (sessionId : SessionId) (title : Str) (cwd : PathBuf)
      (initialCommand : List Str)
  | destroyWindow (id : WindowId) (expectedVersion : Option Version)
  | renameWindow (id : WindowId) (newTitle : Str) (expectedVersion : Option Version)
  | focusWindow (id : WindowId) (expectedVersion : Option Version)
  | reorderWindow (id : WindowId) (newIndex : Nat) (expectedVersion : Option Version)
  | createPane (windowId : WindowId) (cwd : PathBuf) (command : List Str)
  | destroyPane (id : PaneId) (expectedVersion : Option Version)
  | setPaneExitStatus (id : PaneId) (exitStatus : Int)
  | setSessionTag (id : SessionId) (key value : Str)
  | setPaneTag (id : PaneId) (key value : Str)
  | setSessionTheme (id : SessionId) (theme : Option ThemeRef)
  | setPaneTheme (id : PaneId) (theme : Option ThemeRef)
  | setPaneTitle (id : PaneId) (title : Option Str) (auto : Option Bool)
  | setPaneOscTitle (id : PaneId) (title : Str)
  | setPaneProgramStatus (id : PaneId) (status : PaneStatusUpdate)
  | claimPanePty (id : PaneId) (incarnation : Nat)
  | setPaneExitStatusOwned (id : PaneId) (exit : ProgramExit) (incarnation : Nat)
      (finalStatus : Option PaneStatusUpdate)
  | splitPane (targetPane : PaneId) (direction : Direction) (ratio : R) (command : List Str)
  | focusPane (id : PaneId)
  | focusPaneDirection (windowId : WindowId) (direction : NavDirection) (viewport : Rect)
  | resizePane (id : PaneId) (direction : Direction) (delta : R)
      (expectedVersion : Option Version)
  | zoomPane (id : PaneId) (expectedVersion : Option Version)
  | zoomPaneIfFocused (id focused : PaneId)
  | destroyPaneAndEmptyParents (id : PaneId)
  | swapPanes (a b : PaneId) (expectedVersion : Option Version)
  | snapshot
  | applyBatch (ops : List (Op R))

/-- What a command is answered with when it succeeds. -/
inductive Reply where
  | done
  | flag (value : Bool)
  | session (id : SessionId)
  | window (id : WindowId)
  | pane (id : PaneId)
  | maybeWindow (id : Option WindowId)
  | maybePane (id : Option PaneId)
  | batch (result : BatchResult)
  deriving DecidableEq

/-- What a command is answered with when it fails. -/
inductive Failure where
  | graph (error : GraphError)
  | batch (error : BatchError)
  deriving DecidableEq

variable {R : Type} [Host] [F32 R]

open SessionGraph Proc

/-- An operation as the body of a command: its value and its error become the
reply. -/
def answer {α : Type} (reply : α → Reply) (op : GraphM R GraphError α) : GraphM R Failure Reply :=
  do return reply (← mapError .graph op)

/-- What the graph task does with a command. -/
def GraphCommand.body : GraphCommand R → GraphM R Failure Reply
  | createSession name cwd initialCommand =>
    answer .session (createSessionWithCommand name cwd initialCommand)
  | destroySession id expectedVersion =>
    answer (fun _ => .done) (SessionGraph.destroySession id expectedVersion)
  | renameSession id newName expectedVersion =>
    answer (fun _ => .done) (SessionGraph.renameSession id newName expectedVersion)
  | createWindow sessionId title cwd initialCommand =>
    answer .window (createWindowWithCommand sessionId title cwd initialCommand)
  | destroyWindow id expectedVersion =>
    answer (fun _ => .done) (SessionGraph.destroyWindow id expectedVersion)
  | renameWindow id newTitle expectedVersion =>
    answer (fun _ => .done) (SessionGraph.renameWindow id newTitle expectedVersion)
  | focusWindow id expectedVersion =>
    answer .maybeWindow (SessionGraph.focusWindow id expectedVersion)
  | reorderWindow id newIndex expectedVersion =>
    answer (fun _ => .done) (SessionGraph.reorderWindow id newIndex expectedVersion)
  | createPane windowId cwd command => answer .pane (SessionGraph.createPane windowId cwd command)
  | destroyPane id expectedVersion =>
    answer (fun _ => .done) (SessionGraph.destroyPane id expectedVersion)
  | setPaneExitStatus id exitStatus =>
    answer (fun _ => .done) (SessionGraph.setPaneExitStatus id exitStatus)
  | setSessionTag id key value => answer (fun _ => .done) (SessionGraph.setSessionTag id key value)
  | setPaneTag id key value => answer (fun _ => .done) (SessionGraph.setPaneTag id key value)
  | setSessionTheme id theme => answer (fun _ => .done) (SessionGraph.setSessionTheme id theme)
  | setPaneTheme id theme => answer (fun _ => .done) (SessionGraph.setPaneTheme id theme)
  | setPaneTitle id title auto => answer (fun _ => .done) (SessionGraph.setPaneTitle id title auto)
  | setPaneOscTitle id title => answer (fun _ => .done) (SessionGraph.setPaneOscTitle id title)
  | setPaneProgramStatus id status =>
    answer (fun _ => .done) (SessionGraph.setPaneProgramStatus id status)
  | claimPanePty id incarnation => answer .flag (SessionGraph.claimPanePty id incarnation)
  | setPaneExitStatusOwned id exit incarnation finalStatus =>
    answer (fun _ => .done) (SessionGraph.setPaneExitStatusOwned id exit incarnation finalStatus)
  | splitPane targetPane direction ratio command =>
    answer .pane (splitPaneWithCommand targetPane direction ratio command)
  | focusPane id => answer .maybePane (SessionGraph.focusPane id)
  | focusPaneDirection windowId direction viewport =>
    answer .maybePane (SessionGraph.focusPaneDirection windowId direction viewport)
  | resizePane id direction delta expectedVersion =>
    answer (fun _ => .done) (SessionGraph.resizePane id direction delta expectedVersion)
  | zoomPane id expectedVersion => answer .flag (SessionGraph.zoomPane id expectedVersion)
  | zoomPaneIfFocused id focused => answer .flag (SessionGraph.zoomPaneIfFocused id focused)
  | destroyPaneAndEmptyParents id =>
    answer (fun _ => .done) (SessionGraph.destroyPaneAndEmptyParents id)
  | swapPanes a b expectedVersion =>
    answer (fun _ => .done) (SessionGraph.swapPanes a b expectedVersion)
  | snapshot => return .done
  | applyBatch ops => do return .batch (← mapError .batch (SessionGraph.applyBatch ops))

/-- One turn of the graph task: the answer to a command, and the graph after it. -/
def SessionGraph.step (g : SessionGraph R) (cmd : GraphCommand R) :
    Except Failure Reply × SessionGraph R :=
  exec cmd.body g

/-- The graph after a list of commands. -/
def SessionGraph.run (g : SessionGraph R) (cmds : List (GraphCommand R)) : SessionGraph R :=
  cmds.foldl (fun g cmd => (g.step cmd).2) g

/-- The graphs a list of commands leads to from the empty one. -/
def Reachable (g : SessionGraph R) : Prop := ∃ cmds, g = SessionGraph.newWithEventBus.run cmds

/-! ## A host to run on

For runs on fixed inputs: ids count up, the clock is the count, and a map lists its
entries as it holds them.
-/

namespace Sample

scoped instance host : Host where
  newV4 n := ⟨n⟩
  newV4_injective := by
    intro m n h
    cases h
    rfl
  systemTime n := n
  isAlphanumeric := Char.isAlphanum
  iter _ l := l
  iter_perm _ l := .refl l

/-- A session `a` whose only pane runs a shell. -/
def create : GraphCommand ℚ := .createSession "a".toList (.ofStr "/".toList) ["sh".toList]

end Sample
end Shux
