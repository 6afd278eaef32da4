/-
# Running the building blocks

How each action the operations are made of runs, and what the few ways of moving
the graph (drawing, committing, publishing) do to its parts. The operations below
are computed with these rules.
-/

import Shux.Core.Effect

namespace Shux

variable {R ε : Type}

open Proc

variable (s : SessionGraphSnapshot R)

namespace SessionGraph

variable (g : SessionGraph R)

/-- The graph after some draws from the host, and nothing else. -/
def take (g : SessionGraph R) (draws seqs : Nat) : SessionGraph R :=
  { g with drawn := g.drawn + draws, nextSessionSeq := g.nextSessionSeq + seqs }

@[simp]
theorem take_zero : g.take 0 0 = g := rfl

@[simp]
theorem take_take (a b c d : Nat) : (g.take a b).take c d = g.take (a + c) (b + d) := by
  simp [take, Nat.add_assoc]

@[simp]
theorem take_state (a b : Nat) : (g.take a b).state = g.state := rfl

@[simp]
theorem take_drawn (a b : Nat) : (g.take a b).drawn = g.drawn + a := rfl

@[simp]
theorem commit_state (s : SessionGraphSnapshot R) : (g.commit s).state = s := rfl

@[simp]
theorem publish_state (c : Option Str) (evs : List EventData) :
    (g.publish c evs).state = g.state := rfl

theorem publish_publish (c : Option Str) (evs evs' : List EventData) :
    (g.publish c evs).publish c evs' = g.publish c (evs ++ evs') := by
  simp [publish, List.foldl_append]

theorem log_publish (c : Option Str) (evs : List EventData) :
    (g.publish c evs).eventBus.log = g.eventBus.log ++ evs := by
  induction evs generalizing g with
  | nil => exact (List.append_nil _).symm
  | cons e rest ih =>
    have hstep : g.publish c (e :: rest) = (g.publish c [e]).publish c rest := rfl
    rw [hstep, ih]
    simp [publish]

end SessionGraph

@[simp]
theorem exec_draw {α : Type} (f : Nat → α) (g : SessionGraph R) :
    exec (draw f : GraphM R ε α) g = (.ok (f g.drawn), g.take 1 0) := rfl

@[simp]
theorem exec_current (g : SessionGraph R) :
    exec (current : GraphM R ε _) g = (.ok g.state, g) := rfl

@[simp]
theorem exec_commitSnapshot (g : SessionGraph R) :
    exec (commitSnapshot s : GraphM R ε Unit) g = (.ok (), g.commit s) := rfl

@[simp]
theorem exec_fireAll (evs : List EventData) (g : SessionGraph R) :
    exec (fireAll evs : GraphM R ε Unit) g = (.ok (), g.publish none evs) := rfl

/-- The title a window of this command and directory gets when none is given. -/
def SessionGraphSnapshot.defaultTitle (s : SessionGraphSnapshot R) (sid : SessionId)
    (command : List Str) (cwd : PathBuf) : Str :=
  let base := titleBase (Pane.autoDerivedTitle command cwd)
  (s.searchWindowTitle sid base).getD base

variable [Host]

section

variable (g : SessionGraph R)
include g

@[simp]
theorem exec_PaneId_new :
    exec (PaneId.new : GraphM R ε _) g = (.ok ⟨Host.newV4 g.drawn⟩, g.take 1 0) := rfl

@[simp]
theorem exec_WindowId_new :
    exec (WindowId.new : GraphM R ε _) g = (.ok ⟨Host.newV4 g.drawn⟩, g.take 1 0) := rfl

@[simp]
theorem exec_SessionId_new :
    exec (SessionId.new : GraphM R ε _) g = (.ok ⟨Host.newV4 g.drawn⟩, g.take 1 0) := rfl

@[simp]
theorem exec_newPane (wid : WindowId) (cwd : PathBuf) (command : List Str) :
    exec (newPane wid cwd command : GraphM R ε _) g =
      (.ok (.withCommand ⟨Host.newV4 g.drawn⟩ wid cwd command), g.take 1 0) := by
  rw [← Pane.start_eq]
  rfl

@[simp]
theorem exec_newSession (name : Str) (wid : WindowId) :
    exec (newSession name wid : GraphM R ε _) g =
      (.ok (.new ⟨Host.newV4 g.drawn⟩ (Host.systemTime (g.drawn + 1)) g.nextSessionSeq name wid),
        g.take 2 1) := rfl

end

@[simp]
theorem exec_listValues {K V : Type} (m : FinMap K V) (g : SessionGraph R) :
    exec (listValues m : GraphM R ε _) g = (.ok (Host.iter g.drawn m.values), g) := rfl

@[simp]
theorem exec_defaultWindowTitle (sid : SessionId)
    (command : List Str) (cwd : PathBuf) (g : SessionGraph R) :
    exec (s.defaultWindowTitle sid command cwd : GraphM R ε _) g =
      (.ok (s.defaultTitle sid command cwd), g.take 2 0) := rfl

open SessionGraph

theorem exec_createSession (g : SessionGraph R) (name : Str) (cwd : PathBuf) (command : List Str) :
    exec (createSessionWithCommand name cwd command) g =
      next (exec (stageCreateSession g.state name cwd command none) g) fun r g' =>
        (.ok r.2.1, (g'.commit r.1).publish none r.2.2.2.2) := by
  unfold createSessionWithCommand stageCreateSession
  simp only [exec_bind, exec_require, exec_current, next_ok, exec_ite]
  cases validateSessionName name with
  | error e => rfl
  | ok _ =>
    simp only [next_ok]
    split_ifs
    · rfl
    · simp only [exec_SessionId_new, next_ok]
      cases checkSessionCapacity g.state ⟨Host.newV4 g.drawn⟩ command cwd with
      | error e => rfl
      | ok _ => rfl

/-- The direct form validates the title before it looks the session up, the staged
form after; which of the two errors is reported first is all that differs. -/
theorem exec_createWindow (g : SessionGraph R) (sid : SessionId) (title : Str) (cwd : PathBuf)
    (command : List Str) :
    exec (createWindowWithCommand sid title cwd command) g =
      next (exec (stageCreateWindow g.state sid title cwd command) g) (fun r g' =>
        (.ok r.2.1, (g'.commit r.1).publish none r.2.2.2)) ∨
    (∃ e, exec (createWindowWithCommand sid title cwd command) g = (.error e, g)) ∧
      ∃ e, exec (stageCreateWindow g.state sid title cwd command) g = (.error e, g) := by
  unfold createWindowWithCommand stageCreateWindow
  simp only [exec_bind, exec_require, exec_current, next_ok, exec_ite, exec_throw, next_error]
  cases validateWindowTitle title with
  | error e =>
    refine Or.inr ⟨⟨e, rfl⟩, ?_⟩
    split_ifs
    · exact ⟨_, rfl⟩
    · exact ⟨_, rfl⟩
  | ok title =>
    left
    simp only [next_ok]
    split_ifs
    · rfl
    · rfl
    · cases checkSessionCapacity g.state sid command cwd with
      | error e => rfl
      | ok _ => rfl

theorem exec_splitPane [F32 R] (g : SessionGraph R) (target : PaneId) (direction : Direction)
    (ratio : R) (command : List Str) :
    exec (splitPaneWithCommand target direction ratio command) g =
      next (exec (stageSplitPane g.state target direction ratio command none) g) fun r g' =>
        (.ok r.2.1, (g'.commit r.1).publish none r.2.2.2.2) := by
  unfold splitPaneWithCommand stageSplitPane findPaneWindow
  simp only [exec_bind, exec_current, next_ok, exec_pure]
  cases hpane : g.state.panes.get target with
  | none => rfl
  | some pane =>
    simp only [okOr, exec_pure, next_ok, hpane]
    cases g.state.windows.get pane.windowId with
    | none => rfl
    | some window =>
      simp only [exec_pure, next_ok, exec_require, Option.getD_none]
      cases checkSessionCapacity g.state window.sessionId command pane.cwd with
      | error e => rfl
      | ok _ =>
        simp only [next_ok, exec_newPane, exec_ite]
        split_ifs
        · rfl
        · simp only [exec_commitSnapshot, next_ok, fireUnzoomed, fire, exec_fireAll,
            exec_bind, exec_pure, publish_publish]

end Shux
