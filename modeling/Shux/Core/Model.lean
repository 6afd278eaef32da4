/-
# Entities of the session graph

Sessions hold windows, windows hold panes, and every entity carries a version
that its mutations bump. The records follow the source field by field; what a
constructor draws from the outside (a fresh id, the wall clock, the creation
sequence) is an argument here, and the operations that call it do the drawing.

The second half is the pane's title: which of its four sources is shown, and how
the setters move it.
-/

import Shux.Lib.FinMap
import Shux.Core.Text
import Shux.Core.Layout

namespace Shux

/-- How a UUID is written: 32 hexadecimal digits in groups of 8, 4, 4, 4 and 12. -/
def Uuid.display (uuid : Uuid) : Str :=
  let digits := (Nat.toDigits 16 uuid.value).leftpad 32 '0'
  digits.take 8 ++ '-' :: (digits.drop 8).take 4 ++ '-' :: (digits.drop 12).take 4 ++
    '-' :: (digits.drop 16).take 4 ++ '-' :: digits.drop 20

structure SessionId where
  uuid : Uuid
  deriving DecidableEq

structure WindowId where
  uuid : Uuid
  deriving DecidableEq

structure PluginId where
  uuid : Uuid
  deriving DecidableEq

/-- Restart policy for a pane's child process. -/
inductive RestartPolicy where
  | never
  | onFail
  | always
  deriving DecidableEq

/-- A reference to a named theme. -/
abbrev ThemeRef := Str

/-- Arbitrary key-value metadata. -/
abbrev Tags := FinMap Str Str

/-- Version stamp for optimistic concurrency. -/
abbrev Version := Nat

/-- The state of a status record. -/
inductive ProgramState where
  | idle
  | working
  | done
  | blocked
  | error
  deriving DecidableEq

/-- What a blocked program needs from the user. -/
inductive ProgramKind where
  | permission
  | question
  | auth
  deriving DecidableEq

/-- How many records of a pane are in each state. -/
structure StateCounts where
  idle : Nat
  working : Nat
  done : Nat
  blocked : Nat
  error : Nat
  deriving DecidableEq

/-- The summary of a pane's status records. -/
structure StatusSummary where
  state : ProgramState
  kind : Option ProgramKind
  progress : Option Nat
  app : Option Str
  id : Option Str
  counts : StateCounts
  deriving DecidableEq

/-- One program-status publication for a pane, as its terminal produced it. -/
structure PaneStatusUpdate where
  generation : Nat
  enabled : Bool
  summary : Option StatusSummary
  seen : Bool
  deriving DecidableEq

/-- How a pane's program ended, as its reaper saw it. -/
structure ProgramExit where
  status : Int
  signal : Option Int
  byShux : Bool
  deriving DecidableEq

def ProgramExit.code (status : Int) : ProgramExit := ⟨status, none, false⟩

/-- A session groups windows and represents a named workspace. -/
structure Session where
  id : SessionId
  name : Str
  createdAt : Nat
  createdSeq : Nat
  windows : List WindowId
  activeWindow : WindowId
  env : FinMap Str Str
  theme : Option ThemeRef
  tags : Tags
  version : Version
  createdByPlugin : Option PluginId

def Session.new (id : SessionId) (createdAt createdSeq : Nat) (name : Str)
    (initialWindowId : WindowId) : Session where
  id := id
  name := name
  createdAt := createdAt
  createdSeq := createdSeq
  windows := [initialWindowId]
  activeWindow := initialWindowId
  env := ∅
  theme := none
  tags := ∅
  version := 1
  createdByPlugin := none

/-- A window contains a layout tree of panes. -/
structure Window (R : Type) where
  id : WindowId
  sessionId : SessionId
  title : Str
  activePane : PaneId
  layout : WindowLayout R
  cwd : Option PathBuf
  theme : Option ThemeRef
  tags : Tags
  version : Version
  createdByPlugin : Option PluginId

/-- Construct a window. The title goes through the sanitizer once more, so no
construction site can mint a window whose title carries an escape sequence. -/
def Window.new {R : Type} (id : WindowId) (sessionId : SessionId) (title : Str)
    (initialPaneId : PaneId) : Window R where
  id := id
  sessionId := sessionId
  title := sanitizeTitle title
  activePane := initialPaneId
  layout := .new initialPaneId
  cwd := none
  theme := none
  tags := ∅
  version := 1
  createdByPlugin := none

/-- A pane is a terminal viewport running a child process. -/
structure Pane where
  id : PaneId
  windowId : WindowId
  title : Str
  manualTitle : Option Str
  oscTitle : Option Str
  autoTitle : Bool
  cwd : PathBuf
  command : List Str
  exitStatus : Option Int
  exitSignal : Option Int
  exitByShux : Bool
  restart : RestartPolicy
  theme : Option ThemeRef
  tags : Tags
  version : Version
  createdByPlugin : Option PluginId
  programStatus : Option StatusSummary
  programStatusSeen : Bool
  programStatusEnabled : Bool

namespace Pane

/-- Shown when neither the command nor the cwd yields a printable name. -/
def fallbackPaneTitle : Str := "pane".toList

/-- A name as a title, unless it sanitizes to nothing. -/
def titleFrom (name : Option Str) : Option Str :=
  match name with
  | none => none
  | some raw =>
    let sanitized := sanitizeTitleClamped raw
    if sanitized.isEmpty then none else some sanitized

/-- The title automatic sources other than OSC give: the command's program name,
the directory's name, the whole path, or the fallback. -/
def autoDerivedTitle (command : List Str) (cwd : PathBuf) : Str :=
  match titleFrom (commandDisplayName command) with
  | some title => title
  | none =>
    match titleFrom (cwd.fileName.bind PathBuf.toStr) with
    | some title => title
    | none =>
      let whole := sanitizeTitleClamped cwd.toStringLossy
      if whole.isEmpty then fallbackPaneTitle else whole

/-- Recompute the shown title from its sources, highest priority first. -/
def recalculateTitle (pane : Pane) : Pane :=
  match pane.manualTitle with
  | some manual => { pane with title := manual }
  | none =>
    if pane.autoTitle then
      match pane.oscTitle with
      | some osc => { pane with title := osc }
      | none => { pane with title := autoDerivedTitle pane.command pane.cwd }
    else pane

def new (id : PaneId) (windowId : WindowId) (cwd : PathBuf) : Pane :=
  recalculateTitle
    { id := id
      windowId := windowId
      title := []
      manualTitle := none
      oscTitle := none
      autoTitle := true
      cwd := cwd
      command := []
      exitStatus := none
      exitSignal := none
      exitByShux := false
      restart := .never
      theme := none
      tags := ∅
      version := 1
      createdByPlugin := none
      programStatus := none
      programStatusSeen := false
      programStatusEnabled := false }

def withCommand (id : PaneId) (windowId : WindowId) (cwd : PathBuf) (command : List Str) : Pane :=
  recalculateTitle { new id windowId cwd with command := command }

/-- A pane as the graph creates it: `new` without a command, `withCommand` with one. -/
def start (id : PaneId) (windowId : WindowId) (cwd : PathBuf) (command : List Str) : Pane :=
  if command.isEmpty then new id windowId cwd else withCommand id windowId cwd command

/-- Set or clear the manual title. -/
def setManualTitle (pane : Pane) (title : Option Str) : Pane :=
  recalculateTitle { pane with manualTitle := title.map sanitizeTitleClamped }

/-- Record an OSC 0/2 title update. The flag says whether the shown title moved. -/
def setOscTitle (pane : Pane) (title : Str) : Pane × Bool :=
  let sanitized := sanitizeTitleClamped title
  let newOsc := if sanitized.isEmpty then none else some sanitized
  if pane.oscTitle = newOsc then (pane, false)
  else
    let updated := recalculateTitle { pane with oscTitle := newOsc }
    (updated, pane.title != updated.title)

/-- Toggle the auto-title flag. Turning it off pins the current title. -/
def setAutoTitle (pane : Pane) (enabled : Bool) : Pane :=
  if pane.autoTitle = enabled then pane
  else recalculateTitle { pane with autoTitle := enabled }

theorem recalculateTitle_eq (pane : Pane) :
    ∃ title, pane.recalculateTitle = { pane with title := title } := by
  unfold recalculateTitle
  split
  · exact ⟨_, rfl⟩
  · split_ifs
    · split
      · exact ⟨_, rfl⟩
      · exact ⟨_, rfl⟩
    · exact ⟨pane.title, rfl⟩

theorem start_eq (id : PaneId) (windowId : WindowId) (cwd : PathBuf) (command : List Str) :
    start id windowId cwd command = withCommand id windowId cwd command := by
  cases command with
  | nil => rfl
  | cons arg rest => rfl

end Pane
end Shux
