/-
# Optimistic concurrency

A client that read an entity at some version may ask for an operation on it on the
condition that it still has that version. No update is lost when a request that went
through leaves the entity at a greater version: whoever read the old one is refused,
whatever happened in between.

Renaming, destroying, resizing, zooming and swapping do so. Focusing and reordering a
window check the window's version and raise the session's, so the version they checked
stays good.
-/

import Shux.Core.Versions

namespace Shux

variable {R : Type}

open Proc SessionGraph SessionGraphSnapshot

variable {s : SessionGraphSnapshot R}

/-- What a request can carry a version of. -/
inductive Entity where
  | session (id : SessionId)
  | window (id : WindowId)
  | pane (id : PaneId)
  deriving DecidableEq

namespace Entity

def resource : Entity → Str
  | session _ => "session".toList
  | window _ => "window".toList
  | pane _ => "pane".toList

def uuid : Entity → Uuid
  | session id => id.uuid
  | window id => id.uuid
  | pane id => id.uuid

end Entity

/-- The version an entity has, if it is there. -/
def SessionGraphSnapshot.versionOf (s : SessionGraphSnapshot R) : Entity → Option Version
  | .session id => (s.sessions.get id).map (·.version)
  | .window id => (s.windows.get id).map (·.version)
  | .pane id => (s.panes.get id).map (·.version)

theorem versionOf_session {id : SessionId} {session : Session}
    (h : s.sessions.get id = some session) : s.versionOf (.session id) = some session.version := by
  rw [versionOf, h]
  rfl

theorem versionOf_window {id : WindowId} {window : Window R}
    (h : s.windows.get id = some window) : s.versionOf (.window id) = some window.version := by
  rw [versionOf, h]
  rfl

theorem versionOf_pane {id : PaneId} {pane : Pane}
    (h : s.panes.get id = some pane) : s.versionOf (.pane id) = some pane.version := by
  rw [versionOf, h]
  rfl

namespace GraphCommand

/-- The entity and the version a request is conditional on. -/
def expects : GraphCommand R → Option (Entity × Version)
  | destroySession id ev | renameSession id _ ev => ev.map (.session id, ·)
  | destroyWindow id ev | renameWindow id _ ev | focusWindow id ev | reorderWindow id _ ev =>
    ev.map (.window id, ·)
  | destroyPane id ev | resizePane id _ _ ev | zoomPane id ev | swapPanes id _ ev =>
    ev.map (.pane id, ·)
  | _ => none

/-- The same request from a client that does not care. -/
def unconditional : GraphCommand R → GraphCommand R
  | destroySession id _ => destroySession id none
  | renameSession id name _ => renameSession id name none
  | destroyWindow id _ => destroyWindow id none
  | renameWindow id title _ => renameWindow id title none
  | focusWindow id _ => focusWindow id none
  | reorderWindow id index _ => reorderWindow id index none
  | destroyPane id _ => destroyPane id none
  | resizePane id direction delta _ => resizePane id direction delta none
  | zoomPane id _ => zoomPane id none
  | swapPanes a b _ => swapPanes a b none
  | cmd => cmd

/-- The commands that check a window's version and change its session instead. -/
def movesWindow : GraphCommand R → Bool
  | focusWindow .. | reorderWindow .. => true
  | _ => false

end GraphCommand

/-- A version conflict that names the entity, the version asked for and the one it has. -/
def Conflict (s : SessionGraphSnapshot R) (e : Entity) (v : Version) (error : GraphError) : Prop :=
  ∃ actual, s.versionOf e = some actual ∧ actual ≠ v ∧
    error = .versionConflict e.resource e.uuid v actual

section Stale

variable {g : SessionGraph R} {v : Version}

/-- The check itself, on an entity that has another version. -/
theorem refused_of_stale (e : Entity) {actual : Version} {α : Type}
    {f : Unit → GraphM R GraphError α} {y : GraphM R GraphError α}
    (hactual : g.state.versionOf e = some actual) (hstale : g.state.versionOf e ≠ some v) :
    Refused (Conflict g.state e v)
      (require (checkVersion e.resource e.uuid (some v) actual) >>= f) y g := by
  have hne : actual ≠ v := by
    rintro rfl
    exact hstale hactual
  refine .fails ?_ ⟨actual, hactual, hne, rfl⟩
  rw [checkVersion, if_pos hne]

theorem refused_findPaneWindow {id : PaneId} {α : Type} {E : GraphError → Prop}
    {f f' : SessionGraphSnapshot R × WindowId → GraphM R GraphError α}
    (h : ∀ wid, Refused E (f (g.state, wid)) (f' (g.state, wid)) g) :
    Refused E (findPaneWindow id >>= f) (findPaneWindow id >>= f') g := by
  apply Refused.bind
  intro r g' hexec
  rw [findPaneWindow, exec_bind, exec_current, next_ok] at hexec
  cases hpane : g.state.panes.get id with
  | none =>
    rw [hpane] at hexec
    cases hexec
  | some pane =>
    rw [hpane] at hexec
    cases hexec
    exact h pane.windowId

section Sessions

variable [Host] {id : SessionId} (hstale : g.state.versionOf (.session id) ≠ some v)
include hstale

theorem destroySession_refused : Refused (Conflict g.state (.session id) v)
    (destroySession id (some v)) (destroySession id none) g := by
  refine .bind_ok (exec_current g) ?_
  refine .okOr_bind fun session hsession => ?_
  exact refused_of_stale (.session id) (versionOf_session hsession) hstale

theorem renameSession_refused (name : Str) : Refused (Conflict g.state (.session id) v)
    (renameSession id name (some v)) (renameSession id name none) g := by
  refine .require_bind fun _ => ?_
  refine .bind_ok (exec_current g) ?_
  refine .okOr_bind fun session hsession => ?_
  exact refused_of_stale (.session id) (versionOf_session hsession) hstale

end Sessions

section Windows

variable [Host] {id : WindowId} (hstale : g.state.versionOf (.window id) ≠ some v)
include hstale

theorem destroyWindow_refused : Refused (Conflict g.state (.window id) v)
    (destroyWindow id (some v)) (destroyWindow id none) g := by
  refine .bind_ok (exec_current g) ?_
  refine .okOr_bind fun window hwindow => ?_
  exact refused_of_stale (.window id) (versionOf_window hwindow) hstale

section

omit [Host]

theorem renameWindow_refused (title : Str) : Refused (Conflict g.state (.window id) v)
    (renameWindow id title (some v)) (renameWindow id title none) g := by
  refine .require_bind fun _ => ?_
  refine .bind_ok (exec_current g) ?_
  refine .okOr_bind fun window hwindow => ?_
  exact refused_of_stale (.window id) (versionOf_window hwindow) hstale

theorem focusWindow_refused : Refused (Conflict g.state (.window id) v)
    (focusWindow id (some v)) (focusWindow id none) g := by
  refine .bind_ok (exec_current g) ?_
  refine .okOr_bind fun window hwindow => ?_
  exact refused_of_stale (.window id) (versionOf_window hwindow) hstale

theorem reorderWindow_refused (index : Nat) : Refused (Conflict g.state (.window id) v)
    (reorderWindow id index (some v)) (reorderWindow id index none) g := by
  refine .bind_ok (exec_current g) ?_
  refine .okOr_bind fun window hwindow => ?_
  exact refused_of_stale (.window id) (versionOf_window hwindow) hstale

end

end Windows

section Panes

variable [F32 R] {id : PaneId} (hstale : g.state.versionOf (.pane id) ≠ some v)
include hstale

theorem destroyPane_refused [Host] : Refused (Conflict g.state (.pane id) v)
    (destroyPane id (some v)) (destroyPane id none) g := by
  refine .bind_ok (exec_current g) ?_
  refine .okOr_bind fun pane hpane => ?_
  exact refused_of_stale (.pane id) (versionOf_pane hpane) hstale

theorem resizePane_refused (direction : Direction) (delta : R) :
    Refused (Conflict g.state (.pane id) v)
      (resizePane id direction delta (some v)) (resizePane id direction delta none) g := by
  refine refused_findPaneWindow fun wid => ?_
  refine .okOr_bind fun pane hpane => ?_
  exact refused_of_stale (.pane id) (versionOf_pane hpane) hstale

omit [F32 R] in
theorem zoomPane_refused : Refused (Conflict g.state (.pane id) v)
    (zoomPane id (some v)) (zoomPane id none) g := by
  refine refused_findPaneWindow fun wid => ?_
  refine .okOr_bind fun pane hpane => ?_
  exact refused_of_stale (.pane id) (versionOf_pane hpane) hstale

theorem swapPanes_refused (other : PaneId) : Refused (Conflict g.state (.pane id) v)
    (swapPanes id other (some v)) (swapPanes id other none) g := by
  refine .guard ?_
  refine .bind_ok (exec_current g) ?_
  refine .okOr_bind fun pane hpane => ?_
  refine .okOr_bind fun paneB hpaneB => ?_
  refine .guard ?_
  exact refused_of_stale (.pane id) (versionOf_pane hpane) hstale

end Panes

theorem answer_refused {α : Type} {reply : α → Reply} {E : GraphError → Prop}
    {op op' : GraphM R GraphError α} (h : Refused E op op' g) :
    Refused (fun failure => ∃ error, E error ∧ failure = .graph error) (answer reply op)
      (answer reply op') g := by
  refine .before (.mapError ?_)
  obtain ⟨e, hx, hy⟩ := h
  exact ⟨e, hx, hy.imp_left fun he => ⟨e, he, rfl⟩⟩

theorem of_expects {ev : Option Version} {e e' : Entity} (h : ev.map (e', ·) = some (e, v)) :
    ev = some v ∧ e' = e := by
  obtain ⟨_, rfl, hsame⟩ := Option.map_eq_some_iff.mp h
  cases hsame
  exact ⟨rfl, rfl⟩

/-- Every command that carries another version than the entity has is refused. -/
theorem body_refused [Host] [F32 R] {cmd : GraphCommand R} {e : Entity}
    (hexpects : cmd.expects = some (e, v))
    (hstale : g.state.versionOf e ≠ some v) :
    Refused (fun failure => ∃ error, Conflict g.state e v error ∧ failure = .graph error)
      cmd.body cmd.unconditional.body g := by
  cases cmd with
  | destroySession id ev =>
    obtain ⟨rfl, rfl⟩ := of_expects hexpects
    exact answer_refused (destroySession_refused hstale)
  | renameSession id name ev =>
    obtain ⟨rfl, rfl⟩ := of_expects hexpects
    exact answer_refused (renameSession_refused hstale name)
  | destroyWindow id ev =>
    obtain ⟨rfl, rfl⟩ := of_expects hexpects
    exact answer_refused (destroyWindow_refused hstale)
  | renameWindow id title ev =>
    obtain ⟨rfl, rfl⟩ := of_expects hexpects
    exact answer_refused (renameWindow_refused hstale title)
  | focusWindow id ev =>
    obtain ⟨rfl, rfl⟩ := of_expects hexpects
    exact answer_refused (focusWindow_refused hstale)
  | reorderWindow id index ev =>
    obtain ⟨rfl, rfl⟩ := of_expects hexpects
    exact answer_refused (reorderWindow_refused hstale index)
  | destroyPane id ev =>
    obtain ⟨rfl, rfl⟩ := of_expects hexpects
    exact answer_refused (destroyPane_refused hstale)
  | resizePane id direction delta ev =>
    obtain ⟨rfl, rfl⟩ := of_expects hexpects
    exact answer_refused (resizePane_refused hstale direction delta)
  | zoomPane id ev =>
    obtain ⟨rfl, rfl⟩ := of_expects hexpects
    exact answer_refused (zoomPane_refused hstale)
  | swapPanes a b ev =>
    obtain ⟨rfl, rfl⟩ := of_expects hexpects
    exact answer_refused (swapPanes_refused hstale b)
  | _ => cases hexpects

end Stale

section Accepted

variable {g g' : SessionGraph R} {v : Version}

theorem version_of_allows {actual : Version} (h : Allows (some v) actual) : actual = v := h v rfl

variable [F32 R]

/-- Every pane of the window is bumped, the one that was named among them. -/
theorem MovesLayoutOf.raises {id : PaneId} (hlinked : Linked g.state)
    (h : MovesLayoutOf g g' id (some v)) :
    g.state.versionOf (.pane id) = some v ∧
      ∀ v', g'.state.versionOf (.pane id) = some v' → v < v' := by
  obtain ⟨pane, s, evs, hpane, hallows, ⟨draws, seqs, rfl⟩, -, hpanes⟩ := h
  have hversion := version_of_allows hallows
  subst hversion
  refine ⟨versionOf_pane hpane, fun v' hv' => ?_⟩
  have hget : s.panes.get id = some pane.bump := by
    rcases hlinked.get_of_bumped (Or.inl hpanes : PanesBumped _ _ True _) with hbumped | ⟨-, hmoved⟩
    · rw [hbumped, hpane]
      simp
    · exact absurd trivial hmoved
  rw [publish_state, commit_state, versionOf_pane hget] at hv'
  cases hv'
  exact Nat.lt_succ_self pane.version

variable [Host]

/-- What a request that named a version leaves behind when it commits. -/
def Leaves (cmd : GraphCommand R) (e : Entity) (v : Version) (g g' : SessionGraph R) : Prop :=
  g.commits < g'.commits → g.state.versionOf e = some v ∧
    if cmd.movesWindow then g'.state.versionOf e = some v
    else ∀ v', g'.state.versionOf e = some v' → v < v'

theorem body_leaves (hlinked : Linked g.state) {cmd : GraphCommand R} {e : Entity}
    (hexpects : cmd.expects = some (e, v)) :
    Ensures cmd.body g (fun _ _ => True) fun _ g' => Leaves cmd e v g g' := by
  have hfails : ∀ {E : GraphError → SessionGraph R → Prop} error g', E error g' → True :=
    fun _ _ _ => trivial
  cases cmd with
  | destroySession id ev =>
    obtain ⟨rfl, rfl⟩ := of_expects hexpects
    refine answer_ensures ((destroySession_spec g id _).mono hfails ?_)
    rintro _ g' ⟨session, s, evs, hsession, hallows, ⟨draws, seqs, rfl⟩, ⟨_, _, _, _⟩⟩ -
    cases version_of_allows hallows
    refine ⟨versionOf_session hsession, fun v' hv' => ?_⟩
    simp [versionOf, FinMap.get_remove] at hv'
  | renameSession id name ev =>
    obtain ⟨rfl, rfl⟩ := of_expects hexpects
    refine answer_ensures ((renameSession_spec g id name _).mono hfails ?_)
    rintro _ g' ⟨session, edit, evs, hsession, hallows, hbump, -, ⟨draws, seqs, rfl⟩⟩ -
    cases version_of_allows hallows
    refine ⟨versionOf_session hsession, fun v' hv' => ?_⟩
    have hget : (g.state.editSession id edit).sessions.get id = some (edit session) := by
      simp [editSession, FinMap.get_modify, hsession]
    rw [publish_state, commit_state, versionOf_session hget, hbump] at hv'
    cases hv'
    exact Nat.lt_succ_self session.version
  | destroyWindow id ev =>
    obtain ⟨rfl, rfl⟩ := of_expects hexpects
    refine answer_ensures ((destroyWindow_spec g id _).mono hfails ?_)
    rintro _ g' ⟨window, s, evs, hwindow, hallows, ⟨draws, seqs, rfl⟩, ⟨_, _, _, _, _, _⟩⟩ -
    cases version_of_allows hallows
    refine ⟨versionOf_window hwindow, fun v' hv' => ?_⟩
    simp [versionOf, FinMap.get_remove] at hv'
  | renameWindow id title ev =>
    obtain ⟨rfl, rfl⟩ := of_expects hexpects
    refine answer_ensures ((renameWindow_spec g id title _).mono hfails ?_)
    rintro _ g' ⟨window, s, evs, hwindow, hallows, ⟨draws, seqs, rfl⟩, @⟨_, _, name, _, _, _, _⟩⟩ -
    cases version_of_allows hallows
    refine ⟨versionOf_window hwindow, fun v' hv' => ?_⟩
    have hget : (g.state.editWindow id fun w =>
        { w with title := name, version := w.version + 1 }).windows.get id =
          some { window with title := name, version := window.version + 1 } := by
      simp [editWindow, FinMap.get_modify, hwindow]
    rw [publish_state, commit_state, versionOf_window hget] at hv'
    cases hv'
    exact Nat.lt_succ_self window.version
  | focusWindow id ev =>
    obtain ⟨rfl, rfl⟩ := of_expects hexpects
    refine answer_ensures ((focusWindow_spec g id _).mono hfails ?_)
    rintro _ g' ⟨window, session, edit, hwindow, hallows, -, -, ⟨draws, seqs, rfl⟩⟩ -
    cases version_of_allows hallows
    exact ⟨versionOf_window hwindow, versionOf_window hwindow⟩
  | reorderWindow id index ev =>
    obtain ⟨rfl, rfl⟩ := of_expects hexpects
    refine answer_ensures ((reorderWindow_spec g id index _).mono hfails ?_)
    rintro _ g' ⟨window, session, edit, hwindow, hallows, -, -, ⟨draws, seqs, rfl⟩⟩ -
    cases version_of_allows hallows
    exact ⟨versionOf_window hwindow, versionOf_window hwindow⟩
  | destroyPane id ev =>
    obtain ⟨rfl, rfl⟩ := of_expects hexpects
    refine answer_ensures ((destroyPane_spec g id _).mono hfails ?_)
    rintro _ g' ⟨pane, s, evs, hpane, hallows, ⟨draws, seqs, rfl⟩, ⟨_, _, _, _, _, _⟩⟩ -
    cases version_of_allows hallows
    refine ⟨versionOf_pane hpane, fun v' hv' => ?_⟩
    simp [versionOf, relayout, FinMap.get_remove] at hv'
  | resizePane id direction delta ev =>
    obtain ⟨rfl, rfl⟩ := of_expects hexpects
    refine answer_ensures ((resizePane_spec g id direction delta _).mono hfails ?_)
    rintro _ g' (rfl | hmoves) hcommits
    · exact absurd hcommits (lt_irrefl _)
    · exact hmoves.raises hlinked
  | zoomPane id ev =>
    obtain ⟨rfl, rfl⟩ := of_expects hexpects
    refine answer_ensures ((zoomPane_spec g id _).mono hfails ?_)
    rintro _ g' (rfl | hmoves) hcommits
    · exact absurd hcommits (lt_irrefl _)
    · exact hmoves.raises hlinked
  | swapPanes a b ev =>
    obtain ⟨rfl, rfl⟩ := of_expects hexpects
    refine answer_ensures ((swapPanes_spec g a b _).mono hfails ?_)
    rintro _ g' hmoves -
    exact hmoves.raises hlinked
  | _ => cases hexpects

end Accepted

section Supersedes

variable [Host]

theorem Drawn.entity {n : Nat} (h : Drawn n s) {e : Entity}
    {v : Version} (hv : s.versionOf e = some v) : Fresh 0 n e.uuid := by
  cases e with
  | session id =>
    obtain ⟨x, hx, -⟩ := Option.map_eq_some_iff.mp hv
    exact h.session id x hx
  | window id =>
    obtain ⟨w, hw, -⟩ := Option.map_eq_some_iff.mp hv
    exact h.window id w hw
  | pane id =>
    obtain ⟨p, hp, -⟩ := Option.map_eq_some_iff.mp hv
    exact h.pane id p hp

/-- An entity drawn before is found later only if it was there, at no greater version. -/
theorem Aged.versionOf {kinds : Set Kind} {lo hi : Nat} {s' : SessionGraphSnapshot R}
    (h : Aged kinds lo hi s s') {e : Entity} {v' : Version} (hold : Fresh 0 lo e.uuid)
    (hv' : s'.versionOf e = some v') : ∃ v, s.versionOf e = some v ∧ v ≤ v' := by
  cases e with
  | session id =>
    obtain ⟨x', hx', rfl⟩ := Option.map_eq_some_iff.mp hv'
    obtain ⟨x, hx, hnewer⟩ := h.old_session hold hx'
    exact ⟨x.version, versionOf_session hx, hnewer.le⟩
  | window id =>
    obtain ⟨w', hw', rfl⟩ := Option.map_eq_some_iff.mp hv'
    obtain ⟨w, hw, hnewer⟩ := h.old_window hold hw'
    exact ⟨w.version, versionOf_window hw, hnewer.le⟩
  | pane id =>
    obtain ⟨p', hp', rfl⟩ := Option.map_eq_some_iff.mp hv'
    obtain ⟨p, hp, hlater⟩ := h.old_pane hold hp'
    exact ⟨p.version, versionOf_pane hp, hlater.newer.le⟩

variable [F32 R]

/-- From `g` on, version `v` of an entity is past: the entity is gone or newer, and
after any further commands a request that carries `v` is refused, with a version
conflict or as it would be without a version. -/
structure Supersedes (g : SessionGraph R) (e : Entity) (v : Version) : Prop where
  newer : ∀ v', g.state.versionOf e = some v' → v < v'
  refuses : ∀ (later : List (GraphCommand R)) (cmd : GraphCommand R),
    cmd.expects = some (e, v) → ∃ failure, ((g.run later).step cmd).1 = .error failure ∧
      ((∃ error, Conflict (g.run later).state e v error ∧ failure = .graph error) ∨
        ((g.run later).step cmd.unconditional).1 = .error failure)

/-- Versions do not come back. -/
theorem supersedes_of_newer {g : SessionGraph R} {e : Entity} {v : Version}
    (hsound : Sound g.drawn g.state) (hold : Fresh 0 g.drawn e.uuid)
    (hnewer : ∀ v', g.state.versionOf e = some v' → v < v') : Supersedes g e v := by
  refine ⟨hnewer, fun later cmd hexpects => ?_⟩
  obtain ⟨n, evs, hadvances⟩ := run_moves g later fun cmd _ => Set.subset_univ cmd.kinds
  apply body_refused hexpects
  intro hstill
  obtain ⟨v', hv', hle⟩ := (hadvances.trace.aged hsound).versionOf hold hstill
  exact absurd (hnewer v' hv') (not_lt.mpr hle)

/-- In every state that commands lead to: a request that carries a version, succeeds and
commits leaves that version behind, unless it focuses or reorders a window. -/
theorem step_supersedes (cmds : List (GraphCommand R)) (cmd : GraphCommand R) (e : Entity)
    (v : Version) (reply : Reply) (hexpects : cmd.expects = some (e, v))
    (hok : ((SessionGraph.newWithEventBus.run cmds).step cmd).1 = .ok reply)
    (hcommits : (SessionGraph.newWithEventBus.run cmds).commits <
      ((SessionGraph.newWithEventBus.run cmds).step cmd).2.commits) :
    Supersedes ((SessionGraph.newWithEventBus.run cmds).step cmd).2 e v ↔
      cmd.movesWindow = false := by
  have hsound : Sound (SessionGraph.newWithEventBus.run cmds).drawn
      (SessionGraph.newWithEventBus.run cmds : SessionGraph R).state := Reachable.sound ⟨cmds, rfl⟩
  generalize (SessionGraph.newWithEventBus.run cmds : SessionGraph R) = g at hok hcommits hsound ⊢
  obtain ⟨n, evs, hadvances⟩ := step_moves g cmd
  have hleaves : Leaves cmd e v g (g.step cmd).2 :=
    (body_leaves hsound.linked hexpects).of_ok (Prod.ext hok rfl)
  obtain ⟨hversion, hafter⟩ := hleaves hcommits
  constructor
  · intro hsupersedes
    by_contra hmoves
    rw [Bool.not_eq_false] at hmoves
    rw [if_pos hmoves] at hafter
    exact lt_irrefl v (hsupersedes.newer v hafter)
  · intro hmoves
    rw [hmoves, if_neg Bool.false_ne_true] at hafter
    have hold : Fresh 0 (g.step cmd).2.drawn e.uuid :=
      (hsound.drawn.entity hversion).mono hadvances.trace.le
    exact supersedes_of_newer (hadvances.trace.sound hsound) hold hafter

end Supersedes

section Focus

open Sample

/-- A client focuses the window it read at version 1, and version 1 is still good. -/
theorem focus_not_supersedes :
    let g := SessionGraph.newWithEventBus.run [create]
    let cmd : GraphCommand ℚ := .focusWindow ⟨⟨2⟩⟩ (some 1)
    cmd.expects = some (.window ⟨⟨2⟩⟩, 1) ∧ (∃ reply, (g.step cmd).1 = .ok reply) ∧
      g.commits < (g.step cmd).2.commits ∧
      ¬ Supersedes (g.step cmd).2 (.window ⟨⟨2⟩⟩) 1 := by
  intro g cmd
  have hok : (g.step cmd).1 = .ok (.maybeWindow none) := by decide
  have hcommits : g.commits < (g.step cmd).2.commits := by decide
  have hversion : (g.step cmd).2.state.versionOf (.window ⟨⟨2⟩⟩) = some 1 := by decide
  refine ⟨rfl, ⟨_, hok⟩, hcommits, fun hsupersedes => ?_⟩
  exact lt_irrefl 1 (hsupersedes.newer 1 hversion)

/-- A client renames the session it read at version 1. -/
theorem step_supersedes_rename :
    let g := SessionGraph.newWithEventBus.run [create]
    let cmd : GraphCommand ℚ := .renameSession ⟨⟨9⟩⟩ "b".toList (some 1)
    Supersedes (g.step cmd).2 (.session ⟨⟨9⟩⟩) 1 ↔ cmd.movesWindow = false := by
  intro g cmd
  refine step_supersedes [create] cmd (.session ⟨⟨9⟩⟩) 1 .done rfl ?_ ?_
  · decide
  · decide

end Focus

end Shux
