/-
# Failed commands

A command that fails has changed nothing anyone can see: the snapshot, both side
maps and the event log are what they were. Most operations make all their checks
before they touch anything. Two do not: a claim records the owner before it looks
up the session, and an owned exit commits a final status before it looks up the
pane's window again. There the later lookups cannot fail, because the references of
a reachable snapshot agree.
-/

import Shux.Core.Structure

namespace Shux

variable {R : Type}

open Proc SessionGraph

variable {s : SessionGraphSnapshot R}

/-- Everything a graph shows is the same. The supply of ids and times is not shown. -/
structure Unchanged (g g' : SessionGraph R) : Prop where
  state : g'.state = g.state
  ptyOwners : g'.ptyOwners = g.ptyOwners
  statusGenerations : g'.statusGenerations = g.statusGenerations
  eventBus : g'.eventBus = g.eventBus

theorem Unchanged.refl (g : SessionGraph R) : Unchanged g g := ⟨rfl, rfl, rfl, rfl⟩

theorem Quiet.unchanged {g g' : SessionGraph R} (h : Quiet g g') : Unchanged g g' := by
  obtain ⟨draws, seqs, rfl⟩ := h
  exact ⟨rfl, rfl, rfl, rfl⟩

/-- The session of a pane's window can always be looked up. -/
theorem Linked.sessionOf_ne_none (h : Linked s) {pid : PaneId}
    {p : Pane} (hp : s.panes.get pid = some p) : s.sessionOf p.windowId ≠ none := by
  obtain ⟨w, hw⟩ := h.pane_window pid p hp
  rw [SessionGraphSnapshot.sessionOf, hw]
  exact Option.some_ne_none _

theorem Linked.get_eq_none (h : Linked s) {pid : PaneId}
    (hnone : ∀ p, s.panes.get pid = some p → s.sessionOf p.windowId = none) :
    s.panes.get pid = none := by
  rw [Option.eq_none_iff_forall_ne_some]
  exact fun p hp => h.sessionOf_ne_none hp (hnone p hp)

/-- An operation that draws at most before it fails. -/
theorem fails_unchanged {α : Type} {reply : α → Reply} {op : GraphM R GraphError α}
    {g : SessionGraph R} {Q : α → SessionGraph R → Prop}
    (h : Ensures op g (fun _ => Quiet g) Q) :
    Ensures (answer reply op) g (fun _ => Unchanged g) fun _ _ => True :=
  answer_ensures (h.mono (fun _ _ hquiet => hquiet.unchanged) fun _ _ _ => trivial)

section Late

variable {g : SessionGraph R} (hlinked : Linked g.state) (id : PaneId)
include hlinked

theorem claimPanePty_fails (incarnation : Nat) :
    Ensures (claimPanePty id incarnation) g (fun _ => Unchanged g) fun _ _ => True := by
  refine (claimPanePty_spec g id incarnation).mono ?_ fun _ _ _ => trivial
  rintro _ g' (⟨rfl, -⟩ | ⟨-, pane, hpane, hnone⟩)
  · exact .refl g'
  · exact absurd hnone (hlinked.sessionOf_ne_none hpane)

/-- Whatever a status did, the pane is still there, in a window that is. -/
theorem setPaneProgramStatus_keeps (status : PaneStatusUpdate) :
    Ensures (setPaneProgramStatus id status) g
      (fun _ g' => g' = g ∧ g.state.panes.get id = none)
      fun _ g' => ∃ pane, g'.state.panes.get id = some pane ∧
        g'.state.sessionOf pane.windowId ≠ none := by
  refine (setPaneProgramStatus_spec g id status).mono ?_ ?_
  · rintro _ g' ⟨rfl, hnone⟩
    exact ⟨rfl, hlinked.get_eq_none hnone⟩
  · rintro _ g' ⟨pane, hpane, hcases⟩
    have hwindow := hlinked.sessionOf_ne_none hpane
    rcases hcases with ⟨-, rfl⟩ | ⟨-, -, rfl⟩ | ⟨-, ⟨-, rfl⟩ | ⟨sid, hcommitted⟩⟩
    · exact ⟨pane, hpane, hwindow⟩
    · exact ⟨pane, hpane, hwindow⟩
    · exact ⟨pane, hpane, hwindow⟩
    · refine ⟨pane.recordStatus status, ?_, ?_⟩
      · rw [hcommitted.state, SessionGraphSnapshot.editPane, FinMap.get_modify, if_pos rfl, hpane]
        rfl
      · rw [hcommitted.state]
        exact hwindow

theorem setPaneExitStatusOwned_fails (exit : ProgramExit) (incarnation : Nat)
    (finalStatus : Option PaneStatusUpdate) :
    Ensures (setPaneExitStatusOwned id exit incarnation finalStatus) g (fun _ => Unchanged g)
      fun _ _ => True := by
  refine .bind_ok (exec_get g) ?_
  refine .ite (fun _ => trivial) fun _ => ?_
  cases finalStatus with
  | none =>
    refine .bind_ok (exec_pure _ _) ((setPaneExit_spec g id exit).mono ?_ fun _ _ _ => trivial)
    rintro _ g' ⟨rfl, -⟩
    exact .refl g'
  | some status =>
    refine .bind ((setPaneProgramStatus_keeps hlinked id status).mono ?_ fun _ _ h => h) ?_
    · rintro _ g' ⟨rfl, -⟩
      exact .refl g'
    · rintro _ g₁ ⟨pane, hpane, hwindow⟩
      refine (setPaneExit_spec g₁ id exit).mono ?_ fun _ _ _ => trivial
      rintro _ g' ⟨-, hnone⟩
      exact absurd (hnone pane hpane) hwindow

end Late

section Commands

variable [Host] [F32 R]

/-- Every command leaves what the graph shows alone when it fails. -/
theorem body_fails {g : SessionGraph R} (hlinked : Linked g.state) (cmd : GraphCommand R) :
    Ensures cmd.body g (fun _ => Unchanged g) fun _ _ => True := by
  cases cmd with
  | createSession name cwd command => exact fails_unchanged (createSession_spec g name cwd command)
  | destroySession id ev => exact fails_unchanged (destroySession_spec g id ev)
  | renameSession id name ev => exact fails_unchanged (renameSession_spec g id name ev)
  | createWindow sid title cwd command =>
    exact fails_unchanged (createWindow_spec g sid title cwd command)
  | destroyWindow id ev =>
    refine answer_ensures ((destroyWindow_spec g id ev).mono ?_ fun _ _ _ => trivial)
    rintro _ g' rfl
    exact .refl g'
  | renameWindow id title ev => exact fails_unchanged (renameWindow_spec g id title ev)
  | focusWindow id ev => exact fails_unchanged (focusWindow_spec g id ev)
  | reorderWindow id index ev => exact fails_unchanged (reorderWindow_spec g id index ev)
  | createPane wid cwd command => exact fails_unchanged (createPane_spec g wid cwd command)
  | destroyPane id ev =>
    refine answer_ensures ((destroyPane_spec g id ev).mono ?_ fun _ _ _ => trivial)
    rintro _ g' ⟨rfl, -⟩
    exact .refl g'
  | setPaneExitStatus id exitStatus =>
    refine answer_ensures ((setPaneExit_spec g id _).mono ?_ fun _ _ _ => trivial)
    rintro _ g' ⟨rfl, -⟩
    exact .refl g'
  | setSessionTag id key value => exact fails_unchanged (setSessionTag_spec g id key value)
  | setPaneTag id key value => exact fails_unchanged (setPaneTag_spec g id key value)
  | setSessionTheme id theme => exact fails_unchanged (setSessionTheme_spec g id theme)
  | setPaneTheme id theme => exact fails_unchanged (setPaneTheme_spec g id theme)
  | setPaneTitle id title auto => exact fails_unchanged (setPaneTitle_spec g id title auto)
  | setPaneOscTitle id title => exact fails_unchanged (setPaneOscTitle_spec g id title)
  | setPaneProgramStatus id status =>
    refine answer_ensures ((setPaneProgramStatus_spec g id status).mono ?_ fun _ _ _ => trivial)
    rintro _ g' ⟨rfl, -⟩
    exact .refl g'
  | claimPanePty id incarnation => exact answer_ensures (claimPanePty_fails hlinked id incarnation)
  | setPaneExitStatusOwned id exit incarnation finalStatus =>
    exact answer_ensures (setPaneExitStatusOwned_fails hlinked id exit incarnation finalStatus)
  | splitPane target direction ratio command =>
    exact fails_unchanged (splitPane_spec g target direction ratio command)
  | focusPane id => exact fails_unchanged (focusPane_spec g id)
  | focusPaneDirection wid direction viewport =>
    exact fails_unchanged (focusPaneDirection_spec g wid direction viewport)
  | resizePane id direction delta ev =>
    exact fails_unchanged (resizePane_spec g id direction delta ev)
  | zoomPane id ev => exact fails_unchanged (zoomPane_spec g id ev)
  | zoomPaneIfFocused id focused => exact fails_unchanged (zoomPaneIfFocused_spec g id focused)
  | destroyPaneAndEmptyParents id => exact fails_unchanged (destroyPaneAndEmptyParents_spec g id)
  | swapPanes a b ev => exact fails_unchanged (swapPanes_spec g a b ev)
  | snapshot => exact trivial
  | applyBatch ops =>
    refine .bind (.mapError ((applyBatch_spec g ops).mono ?_ fun _ _ _ => trivial))
      fun _ _ _ => trivial
    exact fun _ _ hquiet => hquiet.unchanged

/-- Commands are atomic: from every state that commands lead to, a command that fails
leaves the snapshot, the side maps and the event log as they were. -/
theorem step_atomic (cmds : List (GraphCommand R)) (cmd : GraphCommand R) {f : Failure}
    (hfails : ((SessionGraph.newWithEventBus.run cmds).step cmd).1 = .error f) :
    Unchanged (SessionGraph.newWithEventBus.run cmds)
      ((SessionGraph.newWithEventBus.run cmds).step cmd).2 := by
  generalize hg : (SessionGraph.newWithEventBus.run cmds : SessionGraph R) = g at hfails ⊢
  have hsound : Sound g.drawn g.state := Reachable.sound ⟨cmds, hg.symm⟩
  refine (body_fails hsound.linked cmd).of_error (e := f) ?_
  rw [← hfails]
  rfl

end Commands

open Sample in
/-- A batch that creates a session and then refers to a pane no operation produced. -/
theorem step_atomic_batch :
    let g := SessionGraph.newWithEventBus.run [create]
    let ops : List (Op ℚ) := [.createSession (some "b".toList) (.ofStr "/".toList) [] none,
      .splitPane (.backRef 2) .vertical (1 / 2) [] none]
    (g.step (.applyBatch ops)).1 = .error (.batch (.backRefOutOfRange 1 2 1)) ∧
      Unchanged g (g.step (.applyBatch ops)).2 :=
  ⟨by decide +kernel,
    step_atomic [create] _ (f := .batch (.backRefOutOfRange 1 2 1)) (by decide +kernel)⟩

end Shux
