/-
# Killing sessions, windows and panes

Each kill finds out which panes it takes down, removes its target from the graph, and then
tears down these panes' input and output. The three find the panes in three ways. `window.kill`
asks the graph which panes name the window, and `pane.kill` knows its pane. `session.kill` walks
the tree each window shows, and a zoomed window shows one pane: the panes behind the zoom are
removed from the graph like the others, but their programs run on and nothing can reach them.
-/

import Shux.Plugin.Confine
import Shux.Io.PaneIo

namespace Shux.Io

open Plugin Proc FinMap

/-- Why a kill was refused. -/
inductive Refusal where
  | rpc (error : RpcError)
  | graph (failure : Failure)

def expectedVersionKey : Str := "expected_version".toList

def parseExpectedVersion (params : Json) : Except RpcError (Option Version) :=
  match params.get expectedVersionKey with
  | none | some .null => .ok none
  | some (.number value) =>
    -- Json numbers are read as u64.
    if 0 ≤ value ∧ value < 2 ^ 64 then .ok (some value.toNat)
    else .error (.invalidParams "'expected_version' must be a non-negative integer".toList)
  | some _ => .error (.invalidParams "'expected_version' must be a non-negative integer".toList)

section Handlers

variable {R : Type} [Host] [F32 R] [UuidText] [Pty.Transcript] {V C : Type}

/-- What a handler works on, and the clocks it reads. -/
structure Daemon (R V C : Type) where
  graph : SessionGraph R
  io : PaneIoState V C
  now : Nat
  finished : Waiter → Bool

namespace Daemon

/-- Remove something from the graph, and then tear down the panes that went with it. If the
graph refuses, their programs are left alone. -/
def destroy (d : Daemon R V C) (cmd : GraphCommand R) (paneIds : List PaneId) (killed : Str) :
    Except Refusal Str × Daemon R V C :=
  match d.graph.step cmd with
  | (.error failure, graph) => (.error (.graph failure), { d with graph := graph })
  | (.ok _, graph) =>
    (.ok killed, { d with graph := graph, io := d.io.teardownPanes d.now d.finished paneIds true })

end Daemon

/-- The session that `id` or `name` gives. -/
def killedSession (s : SessionGraphSnapshot R) (params : Json) : Except RpcError SessionId := do
  match ← optionalRefParam params idKey with
  | some input =>
    let id ← (s.resolveSessionRef input).mapError (refErrorToRpc · idKey)
    if s.sessions.contains id then return id
    else .error (.notFound (RefKind.asStr .session) input)
  | none =>
    match ← optionalRefParam params nameKey with
    | some name =>
      match s.findSessionByName name with
      | some session => return session.id
      | none => .error (.notFound (RefKind.asStr .session) name)
    | none => .error (missing "'name' or 'id'")

def killedWindow (s : SessionGraphSnapshot R) (params : Json) : Except RpcError WindowId := do
  (s.resolveWindowRef (← requiredStr params idKey)).mapError (refErrorToRpc · idKey)

def killedPane (s : SessionGraphSnapshot R) (params : Json) : Except RpcError PaneId := do
  (s.resolvePaneRef (← requiredStr params paneIdKey)).mapError (refErrorToRpc · paneIdKey)

/-- The panes `session.kill` tears down: the leaves of the trees its windows show. -/
def shownPanes (s : SessionGraphSnapshot R) (id : SessionId) : List PaneId :=
  match s.sessions.get id with
  | none => []
  | some session => session.windows.flatMap fun wid =>
    match s.windows.get wid with
    | none => []
    | some w => w.layout.tree.paneIds

/-- The panes `window.kill` tears down: those that name the window. -/
def panesOf (s : SessionGraphSnapshot R) (id : WindowId) : List PaneId :=
  (s.panes.values.filter fun p => p.windowId = id).map (·.id)

/-- Run a reader of the parameters, then the handler proper. -/
def Daemon.reading {α : Type} (d : Daemon R V C) (read : Except RpcError α)
    (handle : α → Except Refusal Str × Daemon R V C) : Except Refusal Str × Daemon R V C :=
  match read with
  | .error e => (.error (.rpc e), d)
  | .ok a => handle a

def sessionKill (d : Daemon R V C) (params : Json) : Except Refusal Str × Daemon R V C :=
  d.reading (killedSession d.graph.state params) fun id =>
    let name := ((d.graph.state.sessions.get id).map (·.name)).getD []
    let paneIds := shownPanes d.graph.state id
    d.reading (parseExpectedVersion params) fun expectedVersion =>
      d.destroy (.destroySession id expectedVersion) paneIds name

def windowKill (d : Daemon R V C) (params : Json) : Except Refusal Str × Daemon R V C :=
  d.reading (killedWindow d.graph.state params) fun id =>
    d.reading (parseExpectedVersion params) fun expectedVersion =>
      let paneIds := panesOf d.graph.state id
      d.destroy (.destroyWindow id expectedVersion) paneIds id.uuid.display

def paneKill (d : Daemon R V C) (params : Json) : Except Refusal Str × Daemon R V C :=
  d.reading (killedPane d.graph.state params) fun id =>
    d.reading (parseExpectedVersion params) fun expectedVersion =>
      d.destroy (.destroyPane id expectedVersion) [id] id.uuid.display

/-- A request to kill something. -/
inductive Kill where
  | session (params : Json)
  | window (params : Json)
  | pane (params : Json)

def Kill.handle (d : Daemon R V C) : Kill → Except Refusal Str × Daemon R V C
  | session params => sessionKill d params
  | window params => windowKill d params
  | pane params => paneKill d params

/-- What the daemon keeps is kept for panes of the graph, and a pane that was dropped had its
PTY task cancelled and its state removed. -/
structure NoOrphans (d d' : Daemon R V C) : Prop where
  held : ∀ pane, d'.io.Holds pane → d'.graph.state.panes.contains pane = true
  dropped : ∀ pane, d.graph.state.panes.contains pane = true →
    d'.graph.state.panes.contains pane = false →
      ¬d'.io.Holds pane ∧ ∀ token, d.io.shutdowns.get pane = some token → token ∈ d'.io.cancelled

/-- Nothing is kept for a pane behind the zoom of a window of the session: in its zoomed windows
only the zoomed pane has a program. -/
def ZoomsHideNothing (d : Daemon R V C) (id : SessionId) : Prop :=
  ∀ session, d.graph.state.sessions.get id = some session →
    ∀ wid ∈ session.windows, ∀ w zoom, d.graph.state.windows.get wid = some w →
      w.layout.zoom = some zoom →
        ∀ pane, Houses d.graph.state wid pane → d.io.Holds pane → pane = zoom.zoomedPane

/-- When a kill reaches every program it should: a session's windows must hide none. -/
def Kill.Reaches (d : Daemon R V C) : Kill → Prop
  | session params => ∀ id, killedSession d.graph.state params = .ok id → ZoomsHideNothing d id
  | window _ => True
  | pane _ => True

section Dropping

omit [Host] [F32 R] [UuidText] [Pty.Transcript]

variable {s : SessionGraphSnapshot R}

/-- The panes that were dropped, said of the graph before. -/
def Drops (s s' : SessionGraphSnapshot R) (gone : PaneId → Prop) : Prop :=
  ∀ pane, s'.panes.contains pane = true ↔ s.panes.contains pane = true ∧ ¬gone pane

theorem Drops.of_windowsGone {s' : SessionGraphSnapshot R} {gone : List WindowId}
    (h : WindowsGone gone s s') : Drops s s' fun pane => ∃ wid ∈ gone, Houses s wid pane := by
  intro pane
  simp only [contains_iff]
  constructor
  · rintro ⟨p, hp⟩
    obtain ⟨hp, hstays⟩ := (h.panes pane p).mp hp
    refine ⟨⟨p, hp⟩, ?_⟩
    rintro ⟨wid, hmem, p', hp', rfl⟩
    rw [hp] at hp'
    cases hp'
    exact hstays hmem
  · rintro ⟨⟨p, hp⟩, hstays⟩
    exact ⟨p, (h.panes pane p).mpr ⟨hp, fun hmem => hstays ⟨_, hmem, p, hp, rfl⟩⟩⟩

theorem Drops.of_removesPane [F32 R] {s' : SessionGraphSnapshot R} {id : PaneId}
    {evs : List EventData} (h : RemovesPane s id s' evs) : Drops s s' (· = id) := by
  cases h with
  | intro listed active hpane hmore hwindow hactive =>
    intro pane
    show (s.panes.remove id).contains pane = true ↔ _
    rw [contains, get_remove]
    by_cases hid : pane = id
    · simp [hid]
    · simp [hid, contains]

theorem mem_panesOf (h : Linked s) (id : WindowId) (pane : PaneId) :
    pane ∈ panesOf s id ↔ Houses s id pane :=
  h.mem_windowPaneIds id pane

theorem mem_shownPanes {id : SessionId} {session : Session}
    (hsession : s.sessions.get id = some session) (pane : PaneId) :
    pane ∈ shownPanes s id ↔ ∃ wid ∈ session.windows, ∃ w, s.windows.get wid = some w ∧
      pane ∈ w.layout.tree.paneIds := by
  unfold shownPanes
  simp only [hsession, List.mem_flatMap]
  constructor
  · rintro ⟨wid, hmem, hpane⟩
    cases hw : s.windows.get wid with
    | none => simp [hw] at hpane
    | some w => exact ⟨wid, hmem, w, hw, by simpa [hw] using hpane⟩
  · rintro ⟨wid, hmem, w, hw, hpane⟩
    exact ⟨wid, hmem, by simpa [hw] using hpane⟩

end Dropping

section Killing

variable {d d' : Daemon R V C} {killed : Str}
variable {ev : Option Version}
variable {reply : Reply} {id : SessionId} {name : Str}

omit [UuidText] in
/-- A kill that went through: what it removed, and whom it tore down. -/
theorem Daemon.destroy_ok {cmd : GraphCommand R} {paneIds : List PaneId}
    (h : d.destroy cmd paneIds name = (.ok killed, d')) :
    (∃ reply, d.graph.step cmd = (.ok reply, d'.graph)) ∧ d.io.TornDown paneIds d'.io := by
  unfold Daemon.destroy at h
  split at h
  · cases h
  · rename_i reply graph hstep
    cases h
    exact ⟨⟨reply, hstep⟩, PaneIoState.tornDown_teardownPanes _ _ _ _⟩

section

omit [Host] [F32 R] [UuidText] [Pty.Transcript]

theorem Daemon.reading_ok {α : Type} {read : Except RpcError α}
    {handle : α → Except Refusal Str × Daemon R V C}
    (h : d.reading read handle = (.ok killed, d')) :
    ∃ a, read = .ok a ∧ handle a = (.ok killed, d') := by
  unfold Daemon.reading at h
  split at h
  · cases h
  · rename_i a
    exact ⟨a, rfl, h⟩

/-- No orphan is left if every dropped pane that has a program is torn down, and only then. -/
theorem noOrphans_iff {paneIds : List PaneId} {gone : PaneId → Prop}
    (hio : ∀ pane, d.io.Holds pane → d.graph.state.panes.contains pane = true)
    (hdrops : Drops d.graph.state d'.graph.state gone) (htorn : d.io.TornDown paneIds d'.io) :
    NoOrphans d d' ↔ ∀ pane, gone pane → d.io.Holds pane → pane ∈ paneIds := by
  constructor
  · intro h pane hgone hholds
    by_contra hmissed
    have hstays := h.held pane ((htorn.holds_iff pane).mpr ⟨hholds, hmissed⟩)
    exact ((hdrops pane).mp hstays).2 hgone
  · intro hall
    refine ⟨fun pane hholds' => ?_, fun pane hwas hnow => ⟨fun hholds' => ?_, ?_⟩⟩
    · obtain ⟨hholds, hmissed⟩ := (htorn.holds_iff pane).mp hholds'
      exact (hdrops pane).mpr ⟨hio pane hholds, fun hgone => hmissed (hall pane hgone hholds)⟩
    · obtain ⟨hholds, hmissed⟩ := (htorn.holds_iff pane).mp hholds'
      have hstays := (hdrops pane).mpr ⟨hwas, fun hgone => hmissed (hall pane hgone hholds)⟩
      rw [hnow] at hstays
      cases hstays
    · intro token htoken
      have hholds : d.io.Holds pane := by
        refine .inr (.inr (.inr (.inr ?_)))
        rw [contains, htoken]
        rfl
      have hgone : gone pane := by
        by_contra hkept
        rw [(hdrops pane).mpr ⟨hwas, hkept⟩] at hnow
        cases hnow
      exact (htorn.cancelled token).mpr (.inr ⟨pane, hall pane hgone hholds, htoken⟩)

end

section

omit [UuidText] [Pty.Transcript]

variable {g g' : SessionGraph R}

/-- The effect a command of the graph had, if it was carried out. -/
theorem effect_of_step {cmd : GraphCommand R} {P : SessionGraphSnapshot R → List EventData → Prop}
    (hspec : Ensures cmd.body g (fun _ _ => True) fun _ g' =>
      ∃ s evs, Committed g g' s evs ∧ P s evs)
    (h : g.step cmd = (.ok reply, g')) : ∃ evs, P g'.state evs := by
  obtain ⟨s, evs, ⟨draws, seqs, rfl⟩, hP⟩ := hspec.of_ok h
  exact ⟨evs, by simpa using hP⟩

theorem removesSession_of_step (h : g.step (.destroySession id ev) = (.ok reply, g')) :
    ∃ evs, RemovesSession g.state id g'.state evs := by
  refine effect_of_step ?_ h
  refine answer_ensures ((destroySession_spec g id ev).mono (fun _ _ _ => trivial) ?_)
  rintro _ g' ⟨session, s, evs, -, -, hcommitted, hremoves⟩
  exact ⟨s, evs, hcommitted, hremoves⟩

theorem removesWindow_of_step {id : WindowId}
    (h : g.step (.destroyWindow id ev) = (.ok reply, g')) :
    ∃ evs, RemovesWindow g.state id g'.state evs := by
  refine effect_of_step ?_ h
  refine answer_ensures ((destroyWindow_spec g id ev).mono (fun _ _ _ => trivial) ?_)
  rintro _ g' ⟨window, s, evs, -, -, hcommitted, hremoves⟩
  exact ⟨s, evs, hcommitted, hremoves⟩

theorem removesPane_of_step {id : PaneId} (h : g.step (.destroyPane id ev) = (.ok reply, g')) :
    ∃ evs, RemovesPane g.state id g'.state evs := by
  refine effect_of_step ?_ h
  refine answer_ensures ((destroyPane_spec g id ev).mono (fun _ _ _ => trivial) ?_)
  rintro _ g' ⟨pane, s, evs, -, -, hcommitted, hremoves⟩
  exact ⟨s, evs, hcommitted, hremoves⟩

end

omit [Host] [F32 R] [UuidText] [Pty.Transcript] in
/-- Of the panes of a session, those with a program are all shown if no zoom hides one. -/
theorem zoomsHideNothing_iff (hlinked : Linked d.graph.state) (htiled : Tiled d.graph.state)
    {session : Session}
    (hsession : d.graph.state.sessions.get id = some session) :
    (∀ pane, (∃ wid ∈ session.windows, Houses d.graph.state wid pane) → d.io.Holds pane →
      pane ∈ shownPanes d.graph.state id) ↔ ZoomsHideNothing d id := by
  constructor
  · intro hall session' hsession' wid hmem w zoom hw hzoom pane hpane hholds
    rw [hsession] at hsession'
    cases hsession'
    have hshown := hall pane ⟨wid, hmem, hpane⟩ hholds
    obtain ⟨wid', -, w', hw', hleaf⟩ := (mem_shownPanes hsession pane).mp hshown
    -- The window that shows the pane is the one it lives in.
    obtain ⟨p, hp, rfl⟩ := hpane
    obtain ⟨p', hp', rfl⟩ := (htiled wid' w' hw').houses_of_shown hleaf
    rw [hp] at hp'
    cases hp'
    rw [hw] at hw'
    cases hw'
    exact ((htiled _ w hw).shown_iff ⟨p, hp, rfl⟩).mp hleaf zoom hzoom
  · rintro hhides pane ⟨wid, hmem, hpane⟩ hholds
    obtain ⟨w, hw, -⟩ := hlinked.windows_exist id session hsession wid hmem
    refine (mem_shownPanes hsession pane).mpr ⟨wid, hmem, w, hw, ?_⟩
    refine ((htiled wid w hw).shown_iff hpane).mpr fun zoom hzoom => ?_
    exact hhides session hsession wid hmem w zoom hw hzoom pane hpane hholds

section

omit [UuidText]

theorem noOrphans_destroySession (hlinked : Linked d.graph.state) (htiled : Tiled d.graph.state)
    (hio : ∀ pane, d.io.Holds pane → d.graph.state.panes.contains pane = true)
    (h : d.destroy (.destroySession id ev) (shownPanes d.graph.state id) name = (.ok killed, d')) :
    NoOrphans d d' ↔ ZoomsHideNothing d id := by
  obtain ⟨⟨reply, hstep⟩, htorn⟩ := Daemon.destroy_ok h
  obtain ⟨evs, hremoves⟩ := removesSession_of_step hstep
  obtain ⟨session, hsession, hgone, -⟩ := hlinked.gone_of_removesSession hremoves
  rw [noOrphans_iff hio (.of_windowsGone hgone) htorn]
  exact zoomsHideNothing_iff hlinked htiled hsession

theorem noOrphans_destroyWindow (hlinked : Linked d.graph.state)
    (hio : ∀ pane, d.io.Holds pane → d.graph.state.panes.contains pane = true)
    {id : WindowId}
    (h : d.destroy (.destroyWindow id ev) (panesOf d.graph.state id) name = (.ok killed, d')) :
    NoOrphans d d' := by
  obtain ⟨⟨reply, hstep⟩, htorn⟩ := Daemon.destroy_ok h
  obtain ⟨evs, hremoves⟩ := removesWindow_of_step hstep
  rw [noOrphans_iff hio (.of_windowsGone (hlinked.gone_of_removesWindow hremoves)) htorn]
  rintro pane ⟨wid, hmem, hpane⟩ -
  rw [List.mem_singleton] at hmem
  exact (mem_panesOf hlinked id pane).mpr (hmem ▸ hpane)

theorem noOrphans_destroyPane
    (hio : ∀ pane, d.io.Holds pane → d.graph.state.panes.contains pane = true)
    {id : PaneId}
    (h : d.destroy (.destroyPane id ev) [id] name = (.ok killed, d')) : NoOrphans d d' := by
  obtain ⟨⟨reply, hstep⟩, htorn⟩ := Daemon.destroy_ok h
  obtain ⟨evs, hremoves⟩ := removesPane_of_step hstep
  rw [noOrphans_iff hio (.of_removesPane hremoves) htorn]
  rintro pane rfl -
  exact List.mem_singleton_self pane

end

/-- In any graph that commands lead to, a kill that goes through leaves no orphan exactly when
it is not a session that is killed while a zoom hides one of its programs. -/
theorem Kill.noOrphans_iff_reaches (cmds : List (GraphCommand R))
    (hbare : ∀ cmd ∈ cmds, cmd.isBare = false)
    (hd : d.graph = SessionGraph.newWithEventBus.run cmds)
    (hio : ∀ pane, d.io.Holds pane → d.graph.state.panes.contains pane = true)
    (kill : Kill) (h : kill.handle d = (.ok killed, d')) :
    NoOrphans d d' ↔ kill.Reaches d := by
  obtain ⟨hlinked, htiled⟩ := run_linked_tiled cmds hbare
  rw [← hd] at hlinked htiled
  cases kill with
  | session params =>
    obtain ⟨id, hid, h⟩ := Daemon.reading_ok h
    obtain ⟨ev, -, h⟩ := Daemon.reading_ok h
    rw [noOrphans_destroySession hlinked htiled hio h]
    constructor
    · intro hhides id' hid'
      rw [hid] at hid'
      cases hid'
      exact hhides
    · intro hreaches
      exact hreaches id hid
  | window params =>
    obtain ⟨id, -, h⟩ := Daemon.reading_ok h
    obtain ⟨ev, -, h⟩ := Daemon.reading_ok h
    exact iff_of_true (noOrphans_destroyWindow hlinked hio h) trivial
  | pane params =>
    obtain ⟨id, -, h⟩ := Daemon.reading_ok h
    obtain ⟨ev, -, h⟩ := Daemon.reading_ok h
    exact iff_of_true (noOrphans_destroyPane hio h) trivial

end Killing
end Handlers

namespace Sample

open Shux.Sample Plugin.Sample

scoped instance transcript : Pty.Transcript := ⟨fun bytes => bytes.map fun b => Char.ofNat b.toNat⟩

/-- Two panes, 1 and 11, the first of them zoomed. -/
def cmds : List (GraphCommand ℚ) :=
  [create, .splitPane ⟨⟨1⟩⟩ .vertical (1 / 2) [], .zoomPane ⟨⟨1⟩⟩ none]

/-- Start a program: a writer, a resizer, a token, a terminal and a revision. -/
def spawn (io : PaneIoState Unit Unit) (pane : PaneId) (handle : Handle) : PaneIoState Unit Unit :=
  { io with
    writers := io.writers.insert pane handle
    resizers := io.resizers.insert pane handle
    shutdowns := io.shutdowns.insert pane handle
    vts := io.vts.insert pane ()
    revisions := io.revisions.insert pane ⟨0, 0⟩ }

def daemon (cmds : List (GraphCommand ℚ)) : Daemon ℚ Unit Unit where
  graph := SessionGraph.newWithEventBus.run cmds
  io := spawn (spawn .new ⟨⟨1⟩⟩ 0) ⟨⟨11⟩⟩ 1
  now := 0
  finished _ := false

def kill : Kill := .session (.object [(nameKey, .string "a".toList)])

theorem holds_daemon (cmds : List (GraphCommand ℚ)) (pane : PaneId)
    (h : (daemon cmds).io.Holds pane) : pane ∈ [(⟨⟨1⟩⟩ : PaneId), ⟨⟨11⟩⟩] := by
  by_contra hother
  have hne : pane ≠ ⟨⟨1⟩⟩ ∧ pane ≠ ⟨⟨11⟩⟩ := by simpa using hother
  simp [PaneIoState.Holds, daemon, spawn, PaneIoState.new, contains, get_insert, hne.1, hne.2] at h

theorem contains_of_holds {cmds : List (GraphCommand ℚ)} (h : ∀ pane ∈ [(⟨⟨1⟩⟩ : PaneId), ⟨⟨11⟩⟩],
      (daemon cmds).graph.state.panes.contains pane = true)
    (pane : PaneId) (hholds : (daemon cmds).io.Holds pane) :
    (daemon cmds).graph.state.panes.contains pane = true :=
  h pane (holds_daemon cmds pane hholds)

/-- Without the zoom, killing the session ends both programs. -/
theorem noOrphans_iff_reaches_unzoomed : let d := daemon (cmds.take 2)
    NoOrphans d (kill.handle d).2 ∧ (kill.handle d).2.io.cancelled = [0, 1] := by
  refine ⟨?_, by decide⟩
  have hkilled : kill.handle (daemon (cmds.take 2)) =
      (.ok "a".toList, (kill.handle (daemon (cmds.take 2))).2) := rfl
  refine (Kill.noOrphans_iff_reaches (cmds.take 2) (by decide) rfl
    (contains_of_holds (by decide)) kill hkilled).mpr ?_
  intro id hid session hsession wid hmem w zoom hw hzoom
  have hwindows : ∀ w ∈ (daemon (cmds.take 2)).graph.state.windows.values,
      w.layout.zoom.isNone = true := by decide
  have hnone := hwindows w ((mem_values_iff _ _).mpr ⟨wid, hw⟩)
  rw [hzoom] at hnone
  cases hnone

/-- With it, the program of pane 11 keeps its writer, its terminal and its token, and the graph
no longer has the pane. -/
theorem session_kill_orphans :
    let d := daemon cmds
    (∀ pane, d.io.Holds pane → d.graph.state.panes.contains pane = true) ∧
      (kill.handle d).1.toOption = some "a".toList ∧ ¬NoOrphans d (kill.handle d).2 := by
  refine ⟨contains_of_holds (by decide), by decide, fun h => ?_⟩
  have hheld := h.held ⟨⟨11⟩⟩ (by decide)
  exact absurd hheld (by decide)

end Sample
end Shux.Io
