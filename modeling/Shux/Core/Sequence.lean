/-
# A batch, one operation at a time

The staged operations of a batch are written a second time beside the public methods.
Here a batch is run against a client that issues the same operations one by one as
commands, and fills in what an earlier operation made by looking it up under the id
its answer gave.

Both draw from the host at the same places, so with the same supply of ids and times
they end in the very same snapshot. The client commits after every operation and the
batch once, which is why only the snapshot is compared.
-/

import Shux.Core.Run

namespace Shux

variable {R : Type}

open Proc SessionGraph

/-- The operations that have a command of their own: a session with a name and no title
for its window, a window with a directory, a split without one. -/
def Op.isPlain : Op R → Bool
  | .createSession (some _) _ _ none | .createSession (some _) _ _ (some []) => true
  | .createWindow _ _ (some _) _ => true
  | .splitPane _ _ _ _ none => true
  | _ => false

/-- The command for an operation, with what it refers to filled in. -/
def Op.command (outputs : List OpOutput) (opIndex : Nat) : Op R → Option (GraphCommand R)
  | .createSession name cwd initialCommand _ =>
    name.map fun name => .createSession name cwd initialCommand
  | .createWindow session title cwd initialCommand =>
    match resolveSessionRef session outputs opIndex with
    | .ok sessionId => cwd.map fun cwd => .createWindow sessionId title cwd initialCommand
    | .error _ => none
  | .splitPane target direction ratio command _ =>
    match resolvePaneRef target outputs opIndex with
    | .ok targetPane => some (.splitPane targetPane direction ratio command)
    | .error _ => none

/-- What a command made, looked up by the id in its answer. -/
def Reply.made (s : SessionGraphSnapshot R) (opIndex : Nat) : Reply → OpOutput
  | .session id =>
    let window := (s.sessions.get id).map (·.activeWindow)
    ⟨opIndex, some id, window, window.bind fun wid => (s.windows.get wid).map (·.activePane)⟩
  | .window id => ⟨opIndex, s.sessionOf id, some id, (s.windows.get id).map (·.activePane)⟩
  | .pane id =>
    let window := (s.panes.get id).map (·.windowId)
    ⟨opIndex, window.bind s.sessionOf, window, some id⟩
  | _ => ⟨opIndex, none, none, none⟩

/-- Issue the operations one by one; `none` as soon as one of them fails. -/
def SessionGraph.oneByOne [Host] [F32 R] (g : SessionGraph R) (outputs : List OpOutput)
    (opIndex : Nat) : List (Op R) → Option (List OpOutput × SessionGraph R)
  | [] => some (outputs, g)
  | op :: rest =>
    match op.command outputs opIndex with
    | none => none
    | some cmd =>
      match g.step cmd with
      | (.ok reply, g') => g'.oneByOne (outputs ++ [reply.made g'.state opIndex]) (opIndex + 1) rest
      | (.error _, _) => none

/-- Two graphs that draw the same from the host. -/
structure Alike (g g' : SessionGraph R) : Prop where
  drawn : g.drawn = g'.drawn
  nextSessionSeq : g.nextSessionSeq = g'.nextSessionSeq

theorem respects_draw {ε α : Type} (f : Nat → α) : Respects Alike (draw f : GraphM R ε α) := by
  intro g g' h
  rw [exec_draw, exec_draw, h.drawn]
  exact ⟨rfl, congrArg (· + 1) h.drawn, h.nextSessionSeq⟩

section Draws

variable [Host] {ε : Type}
variable (s : SessionGraphSnapshot R)

theorem respects_newPane (wid : WindowId) (cwd : PathBuf) (command : List Str) :
    Respects Alike (newPane wid cwd command : GraphM R ε Pane) :=
  .bind (respects_draw _) fun _ => .pure _

theorem respects_newSession (name : Str) (wid : WindowId) :
    Respects Alike (newSession name wid : GraphM R ε Session) := by
  intro g g' h
  rw [exec_newSession, exec_newSession, h.drawn, h.nextSessionSeq]
  exact ⟨rfl, congrArg (· + 2) h.drawn, congrArg (· + 1) h.nextSessionSeq⟩

theorem respects_defaultWindowTitle (sid : SessionId) (command : List Str) (cwd : PathBuf) :
    Respects Alike (s.defaultWindowTitle sid command cwd : GraphM R ε Str) :=
  .bind (respects_draw _) fun _ => .bind (respects_draw _) fun _ => .pure _

theorem stageCreateSession_respects (name : Str) (cwd : PathBuf)
    (command : List Str) (title : Option Str) :
    Respects Alike (stageCreateSession s name cwd command title) := by
  refine .bind (.require _) fun _ => ?_
  refine .guard ?_
  refine .bind (respects_draw _) fun _ => ?_
  refine .bind (.require _) fun _ => ?_
  refine .bind (respects_draw _) fun _ => ?_
  refine .bind (respects_draw _) fun _ => ?_
  refine .bind (respects_newPane _ _ _) fun _ => ?_
  refine .bind ?_ fun _ => ?_
  · split
    · exact .require _
    · exact .bind (respects_draw _) fun _ => respects_defaultWindowTitle _ _ _ _
  · refine .bind (respects_draw _) fun _ => ?_
    refine .bind (respects_draw _) fun _ => ?_
    exact .bind (respects_newSession _ _) fun _ => .pure _

theorem stageCreateWindow_respects (sid : SessionId) (title : Str)
    (cwd : PathBuf) (command : List Str) :
    Respects Alike (stageCreateWindow s sid title cwd command) := by
  refine .guard ?_
  refine .bind (.require _) fun _ => ?_
  refine .guard ?_
  refine .bind (.require _) fun _ => ?_
  refine .bind (respects_draw _) fun _ => ?_
  refine .bind (respects_draw _) fun _ => ?_
  refine .bind (respects_newPane _ _ _) fun _ => ?_
  exact .bind (respects_draw _) fun _ => .pure _

theorem stageSplitPane_respects [F32 R] (target : PaneId)
    (direction : Direction) (ratio : R) (command : List Str) (cwd : Option PathBuf) :
    Respects Alike (stageSplitPane s target direction ratio command cwd) := by
  refine .bind (.okOr _ _) fun _ => ?_
  refine .bind (.okOr _ _) fun _ => ?_
  refine .bind (.require _) fun _ => ?_
  refine .bind (respects_newPane _ _ _) fun _ => ?_
  exact .guard (.pure _)

end Draws

section Made

variable [Host]
variable (g : SessionGraph R)

/-- The new session shows its window, and the window its pane. -/
theorem stageCreateSession_made (s : SessionGraphSnapshot R) (name : Str)
    (cwd : PathBuf) (command : List Str) (opIndex : Nat) :
    Ensures (stageCreateSession s name cwd command none) g (fun _ _ => True) fun r _ =>
      (Reply.session r.2.1).made r.1 opIndex =
        ⟨opIndex, some r.2.1, some r.2.2.1, some r.2.2.2.1⟩ := by
  refine .require_bind (fun _ _ => trivial) fun _ _ => ?_
  refine .guard (fun _ => trivial) fun _ => ?_
  refine .bind_ok (exec_SessionId_new g) ?_
  refine .require_bind (fun _ _ => trivial) fun _ _ => ?_
  refine .bind_ok (exec_PaneId_new _) ?_
  refine .bind_ok (exec_WindowId_new _) ?_
  refine .bind_ok (exec_newPane _ _ _ _) ?_
  refine .bind (P := fun _ _ => True) trivial fun title _ _ => ?_
  refine .bind_ok (exec_SessionId_new _) ?_
  refine .bind_ok (exec_WindowId_new _) ?_
  refine .bind_ok (exec_newSession _ _ _) ?_
  simp [Ensures, Reply.made, Session.new, Window.new]

theorem stageCreateWindow_made (s : SessionGraphSnapshot R) (sid : SessionId)
    (title : Str) (cwd : PathBuf) (command : List Str) (opIndex : Nat) :
    Ensures (stageCreateWindow s sid title cwd command) g (fun _ _ => True) fun r _ =>
      (Reply.window r.2.1).made r.1 opIndex = ⟨opIndex, some sid, some r.2.1, some r.2.2.1⟩ := by
  refine .guard (fun _ => trivial) fun _ => ?_
  refine .require_bind (fun _ _ => trivial) fun _ _ => ?_
  refine .guard (fun _ => trivial) fun _ => ?_
  refine .require_bind (fun _ _ => trivial) fun _ _ => ?_
  refine .bind_ok (exec_PaneId_new _) ?_
  refine .bind_ok (exec_WindowId_new _) ?_
  refine .bind_ok (exec_newPane _ _ _ _) ?_
  refine .bind_ok (exec_WindowId_new _) ?_
  simp [Ensures, Reply.made, SessionGraphSnapshot.sessionOf, Window.new]

theorem stageSplitPane_made [F32 R] (s : SessionGraphSnapshot R)
    (target : PaneId) (direction : Direction) (ratio : R) (command : List Str)
    (cwd : Option PathBuf) (opIndex : Nat) :
    Ensures (stageSplitPane s target direction ratio command cwd) g (fun _ _ => True) fun r _ =>
      (Reply.pane r.2.1).made r.1 opIndex =
        ⟨opIndex, some r.2.2.2.1, some r.2.2.1, some r.2.1⟩ := by
  refine .okOr_bind (fun _ => trivial) fun pane _ => ?_
  refine .okOr_bind (fun _ => trivial) fun window hwindow => ?_
  refine .require_bind (fun _ _ => trivial) fun _ _ => ?_
  refine .bind_ok (exec_newPane _ _ _ _) ?_
  refine .guard (fun _ => trivial) fun _ => ?_
  have hhome : ∀ id cwd, (Pane.withCommand id pane.windowId cwd command).windowId = pane.windowId :=
    fun _ _ => rfl
  simp [Ensures, Reply.made, SessionGraphSnapshot.relayout, SessionGraphSnapshot.sessionOf,
    FinMap.get_modify, hhome, hwindow]

end Made

section InStep

theorem exec_answer {α : Type} (reply : α → Reply) (op : GraphM R GraphError α)
    (g : SessionGraph R) :
    exec (answer reply op) g =
      next ((exec op g).1.mapError Failure.graph, (exec op g).2) fun a g' =>
        (.ok (reply a), g') := by
  rw [answer, exec_bind, exec_mapError]
  rfl

/-- A method that runs as its staged form does and then commits, or fails with it, does
for the client what the staged form does for the batch. -/
theorem inStep_of_direct {α β : Type} {stage : GraphM R GraphError β} {op : GraphM R GraphError α}
    (reply : α → Reply) {id : β → α} {snapshot : β → SessionGraphSnapshot R}
    {events : β → List EventData} {g c : SessionGraph R} (hrespects : Respects Alike stage)
    (halike : Alike g c)
    (hdirect : exec op c = next (exec stage c) (fun r c' =>
        (.ok (id r), (c'.commit (snapshot r)).publish none (events r))) ∨
      (∃ e, exec op c = (.error e, c)) ∧ ∃ e, exec stage c = (.error e, c)) :
    Ensures stage g
      (fun _ _ => ∃ failure c', exec (answer reply op) c = (.error failure, c'))
      fun r g' => ∃ c', exec (answer reply op) c = (.ok (reply (id r)), c') ∧
        c'.state = snapshot r ∧ Alike g' c' := by
  obtain ⟨hanswer, hafter⟩ := hrespects g c halike
  rw [Ensures, exec_answer]
  cases hg : exec stage g with
  | mk r g' =>
    cases hc : exec stage c with
    | mk r' c' =>
      rw [hg, hc] at hanswer hafter
      replace hanswer : r = r' := hanswer
      subst hanswer
      rw [hc] at hdirect
      cases r with
      | error e =>
        rcases hdirect with hdirect | ⟨⟨e', hdirect⟩, -⟩
        · rw [hdirect]
          exact ⟨_, _, rfl⟩
        · rw [hdirect]
          exact ⟨_, _, rfl⟩
      | ok b =>
        rcases hdirect with hdirect | ⟨-, e', hfails⟩
        · rw [hdirect]
          exact ⟨_, rfl, rfl, hafter.drawn, hafter.nextSessionSeq⟩
        · cases hfails

variable [Host] [F32 R]

/-- The staged copy is the client's snapshot, and both draw the same. -/
structure InStep (staged : Staged R) (g c : SessionGraph R) : Prop where
  snapshot : c.state = staged.snapshot
  alike : Alike g c

/-- An operation the batch stages goes through for the client too, and makes the same;
one the batch refuses has no command, or one that fails. -/
theorem stageOp_inStep {staged : Staged R} {g c : SessionGraph R} (h : InStep staged g c)
    (opIndex : Nat) {op : Op R} (hplain : op.isPlain = true) :
    Ensures (stageOp staged opIndex op) g
      (fun _ _ => ∀ cmd, op.command staged.outputs opIndex = some cmd →
        ∃ failure c', c.step cmd = (.error failure, c'))
      fun staged' g' => ∃ cmd reply c', op.command staged.outputs opIndex = some cmd ∧
        c.step cmd = (.ok reply, c') ∧
        staged'.outputs = staged.outputs ++ [reply.made c'.state opIndex] ∧
        InStep staged' g' c' := by
  obtain ⟨hsnapshot, halike⟩ := h
  cases op with
  | createSession name cwd command title =>
    obtain ⟨name, rfl⟩ : ∃ n, name = some n := by
      cases name with
      | none => cases hplain
      | some n => exact ⟨n, rfl⟩
    have huntitled : stageCreateSession staged.snapshot name cwd command title =
        stageCreateSession staged.snapshot name cwd command none := by
      rcases title with _ | ⟨_ | ⟨ch, rest⟩⟩
      · rfl
      · rfl
      · cases hplain
    have hdirect := exec_createSession c name cwd command
    rw [hsnapshot] at hdirect
    have hstage := (inStep_of_direct .session (stageCreateSession_respects _ _ _ _ _) halike
      (Or.inl hdirect)).and (stageCreateSession_made g staged.snapshot name cwd command opIndex)
    rw [← huntitled] at hstage
    refine .bind (.mapError (hstage.mono ?_ fun _ _ h => h)) ?_
    · rintro e g' ⟨hfails, -⟩ cmd hcmd
      cases hcmd
      exact hfails
    · rintro ⟨s, sid, wid, pid, evs⟩ g' ⟨⟨c', hstep, hstate, hafter⟩, hmade⟩
      refine ⟨_, _, c', rfl, hstep, ?_, hstate, hafter⟩
      rw [hstate, hmade]
  | createWindow session title cwd command =>
    obtain ⟨cwd, rfl⟩ : ∃ d, cwd = some d := by
      cases cwd with
      | none => cases hplain
      | some d => exact ⟨d, rfl⟩
    refine .require_bind (fun e he cmd hcmd => ?_) fun sid hsid => ?_
    · simp [Op.command, he] at hcmd
    refine .bind_ok (exec_listValues _ _) ?_
    have hdirect := exec_createWindow c sid title cwd command
    rw [hsnapshot] at hdirect
    have hstage := (inStep_of_direct .window (stageCreateWindow_respects _ _ _ _ _) halike
      hdirect).and (stageCreateWindow_made g staged.snapshot sid title cwd command opIndex)
    refine .bind (.mapError (hstage.mono ?_ fun _ _ h => h)) ?_
    · rintro e g' ⟨hfails, -⟩ cmd hcmd
      simp only [Op.command, hsid, Option.map_some] at hcmd
      cases hcmd
      exact hfails
    · rintro ⟨s, wid, pid, evs⟩ g' ⟨⟨c', hstep, hstate, hafter⟩, hmade⟩
      refine ⟨.createWindow sid title cwd command, .window wid, c', ?_, hstep, ?_, hstate, hafter⟩
      · simp only [Op.command, hsid, Option.map_some]
      · rw [hstate, hmade]
  | splitPane target direction ratio command cwd =>
    obtain rfl : cwd = none := by
      cases cwd with
      | none => rfl
      | some d => cases hplain
    refine .require_bind (fun e he cmd hcmd => ?_) fun pid hpid => ?_
    · simp [Op.command, he] at hcmd
    have hdirect := exec_splitPane c pid direction ratio command
    rw [hsnapshot] at hdirect
    have hstage := (inStep_of_direct .pane (stageSplitPane_respects _ _ _ _ _ _) halike
      (Or.inl hdirect)).and
        (stageSplitPane_made g staged.snapshot pid direction ratio command none opIndex)
    refine .bind (.mapError (hstage.mono ?_ fun _ _ h => h)) ?_
    · rintro e g' ⟨hfails, -⟩ cmd hcmd
      simp only [Op.command, hpid] at hcmd
      cases hcmd
      exact hfails
    · rintro ⟨s, newPid, wid, sid, evs⟩ g' ⟨⟨c', hstep, hstate, hafter⟩, hmade⟩
      refine ⟨.splitPane pid direction ratio command, .pane newPid, c', ?_, hstep, ?_, hstate,
        hafter⟩
      · simp only [Op.command, hpid]
      · rw [hstate, hmade]

/-- The loop of the batch and the client's loop, from states in step. -/
theorem stageOps_inStep (ops : List (Op R)) (hplain : ∀ op ∈ ops, op.isPlain = true)
    {staged : Staged R} {g c : SessionGraph R} (h : InStep staged g c) (opIndex : Nat) :
    Ensures (stageOps staged opIndex ops) g
      (fun _ _ => c.oneByOne staged.outputs opIndex ops = none)
      fun staged' _ => ∃ c', c.oneByOne staged.outputs opIndex ops = some (staged'.outputs, c') ∧
        c'.state = staged'.snapshot := by
  induction ops generalizing staged g c opIndex with
  | nil => exact ⟨c, rfl, h.snapshot⟩
  | cons op rest ih =>
    refine .bind ((stageOp_inStep h opIndex (hplain op List.mem_cons_self)).mono ?_
      fun _ _ h => h) ?_
    · intro e g' hfails
      rw [oneByOne]
      cases hcmd : op.command staged.outputs opIndex with
      | none => rfl
      | some cmd =>
        obtain ⟨failure, c', hstep⟩ := hfails cmd hcmd
        simp only [hstep]
    · rintro staged' g' ⟨cmd, reply, c', hcmd, hstep, houtputs, hnext⟩
      have hone : c.oneByOne staged.outputs opIndex (op :: rest) =
          c'.oneByOne staged'.outputs (opIndex + 1) rest := by
        rw [oneByOne, houtputs]
        simp only [hcmd, hstep]
      rw [hone]
      exact ih (fun op hmem => hplain op (List.mem_cons_of_mem _ hmem)) hnext (opIndex + 1)

theorem applyBatch_inStep (g : SessionGraph R) {ops : List (Op R)} (hne : ops ≠ [])
    (hplain : ∀ op ∈ ops, op.isPlain = true) :
    Ensures (applyBatch ops) g (fun _ _ => g.oneByOne [] 0 ops = none) fun result g' =>
      ∃ c, g.oneByOne [] 0 ops = some (result.outputs, c) ∧ g'.state = c.state := by
  refine .guard (fun hnil => absurd (List.isEmpty_iff.mp hnil) hne) fun _ => ?_
  refine .bind_ok (exec_current g) ?_
  refine .bind (stageOps_inStep ops hplain ⟨rfl, rfl, rfl⟩ 0) ?_
  rintro staged g₁ ⟨c, hone, hstate⟩
  exact ⟨c, hone, hstate.symm⟩

/-- A batch of plain operations goes through exactly when its operations do one by one,
and then both made the same and end in the same snapshot. -/
theorem batch_oneByOne (g : SessionGraph R) (ops : List (Op R)) (hne : ops ≠ [])
    (hplain : ∀ op ∈ ops, op.isPlain = true) :
    ((∃ reply, (g.step (.applyBatch ops)).1 = .ok reply) ↔ (g.oneByOne [] 0 ops).isSome) ∧
    ∀ outputs c, g.oneByOne [] 0 ops = some (outputs, c) →
      ∃ result, (g.step (.applyBatch ops)).1 = .ok (.batch result) ∧ result.outputs = outputs ∧
        (g.step (.applyBatch ops)).2.state = c.state := by
  have hbatch : Ensures (GraphCommand.applyBatch ops).body g
      (fun _ _ => g.oneByOne [] 0 ops = none)
      fun reply g' => ∃ result c, reply = .batch result ∧
        g.oneByOne [] 0 ops = some (result.outputs, c) ∧ g'.state = c.state := by
    refine .bind (.mapError (applyBatch_inStep g hne hplain)) ?_
    rintro result g' ⟨c, hone, hstate⟩
    exact ⟨result, c, rfl, hone, hstate⟩
  cases hstep : g.step (.applyBatch ops) with
  | mk answer g' =>
    cases answer with
    | error e =>
      have hnone := hbatch.of_error hstep
      rw [hnone]
      exact ⟨by simp, by simp⟩
    | ok reply =>
      obtain ⟨result, c, rfl, hone, hstate⟩ := hbatch.of_ok hstep
      rw [hone]
      refine ⟨by simp, fun outputs c' heq => ?_⟩
      cases heq
      exact ⟨result, rfl, rfl, hstate⟩

end InStep

section Empty

open Sample

/-- Nothing can be issued one by one, but it is no batch. -/
theorem empty_batch_refused :
    let g : SessionGraph ℚ := SessionGraph.newWithEventBus
    ¬ ((∃ reply, (g.step (.applyBatch [])).1 = .ok reply) ↔ (g.oneByOne [] 0 []).isSome) := by
  intro g hiff
  obtain ⟨reply, hreply⟩ := hiff.mpr rfl
  cases hreply

/-- A session, a second window in it and a split of that window's pane. -/
theorem batch_oneByOne_template :
    let g : SessionGraph ℚ := SessionGraph.newWithEventBus
    let cwd := PathBuf.ofStr "/".toList
    let ops : List (Op ℚ) :=
      [.createSession (some "a".toList) cwd [] none,
        .createWindow (.backRef 0) "w".toList (some cwd) [],
        .splitPane (.backRef 1) .vertical (1 / 2) [] none]
    ∃ reply, (g.step (.applyBatch ops)).1 = .ok reply := by
  intro g cwd ops
  have hplain : ∀ op ∈ ops, op.isPlain = true := by simp [ops, Op.isPlain]
  rw [(batch_oneByOne g ops (List.cons_ne_nil _ _) hplain).1]
  decide

end Empty

end Shux
