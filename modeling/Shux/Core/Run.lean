/-
# Traces and runs

A command leaves the snapshot as it was or takes it through a chain of effects: one
for most operations, two for an exit with a final status, one for each operation of
a batch. `step_moves` says so for every command, with the kinds of effects the
command can have, and from it an invariant of single effects becomes an invariant
of runs.

All but the three commands of the PTY protocol commit at most once and touch the
side maps only through that commit (`body_commits`).
-/

import Shux.Core.Spec

namespace Shux

variable {R : Type} [Host] [F32 R]

open Proc SessionGraph

/-- A chain of effects, with its length, the draws it starts and ends at, and all the
events it publishes. -/
inductive Trace (kinds : Set Kind) : (lo hi n : Nat) → SessionGraphSnapshot R →
    SessionGraphSnapshot R → List EventData → Prop
  | refl {lo hi : Nat} (s : SessionGraphSnapshot R) (hle : lo ≤ hi) : Trace kinds lo hi 0 s s []
  | snoc {lo mid hi n : Nat} {s s₁ s₂ : SessionGraphSnapshot R} {evs evs' : List EventData}
      (htrace : Trace kinds lo mid n s s₁ evs) (heffect : Effect kinds mid hi s₁ s₂ evs')
      (hle : mid ≤ hi) : Trace kinds lo hi (n + 1) s s₂ (evs ++ evs')

omit [F32 R] in
theorem Fresh.mono {lo hi hi' : Nat} {uuid : Uuid} (hle : hi ≤ hi') (h : Fresh lo hi uuid) :
    Fresh lo hi' uuid := by
  obtain ⟨n, hlo, hhi, heq⟩ := h
  exact ⟨n, hlo, hhi.trans_le hle, heq⟩

/-- Later draws do not undo an effect, and more kinds may happen. -/
theorem Effect.mono {kinds kinds' : Set Kind} {lo hi hi' : Nat} {s s' : SessionGraphSnapshot R}
    {evs : List EventData} (h : Effect kinds lo hi s s' evs) (hsub : kinds ⊆ kinds')
    (hle : hi ≤ hi') : Effect kinds' lo hi' s s' evs := by
  cases h with
  | addSession hkind h =>
    cases h with
    | intro at₀ seq hsid hwid hpid hname hfree hprobe hcapacity htitle =>
      exact .addSession (hsub hkind) (.intro at₀ seq (hsid.mono hle) (hwid.mono hle)
        (hpid.mono hle) hname hfree (hprobe.mono hle) hcapacity htitle)
  | addWindow hkind h =>
    cases h with
    | intro index hwid hpid hsession htitle hfree hcapacity =>
      exact .addWindow (hsub hkind) (.intro index (hwid.mono hle) (hpid.mono hle) hsession
        htitle hfree hcapacity)
  | addPane hkind h =>
    cases h with
    | intro hpid hwindow hcapacity =>
      exact .addPane (hsub hkind) (.intro (hpid.mono hle) hwindow hcapacity)
  | splitPane hkind h =>
    cases h with
    | intro hpid hpane hwindow hcapacity htree =>
      exact .splitPane (hsub hkind) (.intro (hpid.mono hle) hpane hwindow hcapacity htree)
  | removeSession hkind h => exact .removeSession (hsub hkind) h
  | removeWindow hkind h => exact .removeWindow (hsub hkind) h
  | removePane hkind h => exact .removePane (hsub hkind) h
  | editSession hkind hsession h => exact .editSession (hsub hkind) hsession h
  | renameWindow hkind h => exact .renameWindow (hsub hkind) h
  | editPane hkind hpane hkeeps hevs =>
    refine .editPane ?_ hpane hkeeps hevs
    rcases hkind with ⟨hdress, hbody⟩ | hreport
    · exact Or.inl ⟨hsub hdress, hbody⟩
    · exact Or.inr (hsub hreport)
  | relayout hkind h => exact .relayout (hsub hkind) h

namespace Trace

variable {kinds : Set Kind} {lo mid hi n m : Nat} {s s₁ s₂ : SessionGraphSnapshot R}
  {evs evs' : List EventData}

theorem le (h : Trace kinds lo hi n s s₁ evs) : lo ≤ hi := by
  induction h with
  | refl s hle => exact hle
  | snoc htrace heffect hle ih => exact ih.trans hle

theorem single (h : Effect kinds lo hi s s₁ evs) (hle : lo ≤ hi) :
    Trace kinds lo hi 1 s s₁ evs := .snoc (.refl s le_rfl) h hle

theorem mono {kinds' : Set Kind} {hi' : Nat} (h : Trace kinds lo hi n s s₁ evs)
    (hsub : kinds ⊆ kinds') (hle : hi ≤ hi') : Trace kinds' lo hi' n s s₁ evs := by
  induction h generalizing hi' with
  | refl s hle' => exact .refl s (hle'.trans hle)
  | snoc htrace heffect hle' ih => exact .snoc (ih le_rfl) (heffect.mono hsub hle) (hle'.trans hle)

theorem trans (h : Trace kinds lo mid n s s₁ evs) (h' : Trace kinds mid hi m s₁ s₂ evs') :
    Trace kinds lo hi (n + m) s s₂ (evs ++ evs') := by
  induction h' with
  | refl s₁ hle =>
    rw [List.append_nil]
    exact h.mono subset_rfl hle
  | snoc htrace heffect hle ih =>
    rw [← List.append_assoc]
    exact .snoc (ih h) heffect hle

/-- What every effect preserves, every chain of effects preserves. -/
theorem invariant (Inv : Nat → SessionGraphSnapshot R → Prop)
    (hmono : ∀ lo hi s, lo ≤ hi → Inv lo s → Inv hi s)
    (hstep : ∀ lo hi s s' evs, lo ≤ hi → Effect kinds lo hi s s' evs → Inv lo s → Inv hi s')
    (h : Trace kinds lo hi n s s₁ evs) (hinv : Inv lo s) : Inv hi s₁ := by
  induction h with
  | refl s hle => exact hmono _ _ _ hle hinv
  | snoc htrace heffect hle ih => exact hstep _ _ _ _ _ hle heffect (ih hinv)

/-- Every effect counts once in the snapshot's version. -/
theorem version (h : Trace kinds lo hi n s s₁ evs) : s₁.version = s.version + n := by
  induction h with
  | refl s hle => rfl
  | snoc htrace heffect hle ih => rw [heffect.version, ih, Nat.add_assoc]

end Trace

/-- How a graph moved: by a chain of effects, with the events published and the
commits counted. -/
structure Progressed (kinds : Set Kind) (n : Nat) (g g' : SessionGraph R) (evs : List EventData) :
    Prop where
  trace : Trace kinds g.drawn g'.drawn n g.state g'.state evs
  log : g'.eventBus.log = g.eventBus.log ++ evs
  commits_le : g.commits ≤ g'.commits
  commits_lt : g.commits < g'.commits ↔ 0 < n

/-- Some chain of effects leads from one graph to the other. -/
def Moves (kinds : Set Kind) (g g' : SessionGraph R) : Prop := ∃ n evs, Progressed kinds n g g' evs

/-- At most one commit: nothing anyone can see, or one commit of a chain of effects
with the events of all of them after it. -/
inductive Commits (kinds : Set Kind) (g : SessionGraph R) : SessionGraph R → Prop
  | quiet {g' : SessionGraph R} (h : Quiet g g') : Commits kinds g g'
  | once {s : SessionGraphSnapshot R} {evs : List EventData} (draws seqs later n : Nat)
      (correlationId : Option Str) (hpos : 0 < n)
      (htrace : Trace kinds g.drawn (g.drawn + draws + later) n g.state s evs) :
      Commits kinds g ((((g.take draws seqs).commit s).take later 0).publish correlationId evs)

variable {g g' : SessionGraph R}

/-- An operation with one effect. -/
theorem Commits.of_effect {kinds : Set Kind} {s : SessionGraphSnapshot R}
    {evs : List EventData} (h : Committed g g' s evs)
    (heffect : Effect kinds g.drawn g'.drawn g.state s evs) : Commits kinds g g' := by
  obtain ⟨draws, seqs, rfl⟩ := h
  rw [← take_zero ((g.take draws seqs).commit s)]
  exact .once draws seqs 0 1 none Nat.one_pos (.single heffect (Nat.le_add_right _ _))

namespace Moves

variable {kinds : Set Kind} {g g' g'' : SessionGraph R}

theorem of_quiet (h : Quiet g g') : Moves kinds g g' := by
  obtain ⟨draws, seqs, rfl⟩ := h
  exact ⟨0, [], .refl _ (Nat.le_add_right _ _), by simp [SessionGraph.take], le_rfl, by
    simp [SessionGraph.take]⟩

theorem of_commits (h : Commits kinds g g') : Moves kinds g g' := by
  cases h with
  | quiet h => exact .of_quiet h
  | once draws seqs later n c hpos htrace =>
    refine ⟨n, _, htrace, ?_, Nat.le_succ _, ?_⟩
    · rw [log_publish]
      rfl
    · simpa [SessionGraph.publish, SessionGraph.commit, SessionGraph.take] using hpos

theorem of_effect {s : SessionGraphSnapshot R} {evs : List EventData} (h : Committed g g' s evs)
    (heffect : Effect kinds g.drawn g'.drawn g.state s evs) : Moves kinds g g' :=
  .of_commits (.of_effect h heffect)

theorem trans (h : Moves kinds g g') (h' : Moves kinds g' g'') : Moves kinds g g'' := by
  obtain ⟨n, evs, h⟩ := h
  obtain ⟨m, evs', h'⟩ := h'
  refine ⟨n + m, evs ++ evs', h.trace.trans h'.trace, ?_, h.commits_le.trans h'.commits_le, ?_⟩
  · rw [h'.log, h.log, List.append_assoc]
  · have h1 := h.commits_lt
    have h2 := h'.commits_lt
    have h3 := h.commits_le
    have h4 := h'.commits_le
    omega

/-- The side maps are no part of what a chain of effects is about. -/
theorem owned (g : SessionGraph R) (id : PaneId) (incarnation : Nat) :
    Moves kinds g (g.owned id incarnation) :=
  ⟨0, [], .refl _ le_rfl, by simp [SessionGraph.owned], le_rfl, by simp [SessionGraph.owned]⟩

theorem watermarked (g : SessionGraph R) (id : PaneId) (generation : Nat) :
    Moves kinds g (g.watermarked id generation) :=
  ⟨0, [], .refl _ le_rfl, by simp [SessionGraph.watermarked], le_rfl, by
    simp [SessionGraph.watermarked]⟩

end Moves

/-- The kinds of effects that can be staged. -/
def stagedKinds : Set Kind := {.addSession, .addWindow, .splitPane}

omit [Host] [F32 R] in
theorem Quiet.trans {g g' g'' : SessionGraph R} (h : Quiet g g') (h' : Quiet g' g'') :
    Quiet g g'' := by
  obtain ⟨draws, seqs, rfl⟩ := h
  obtain ⟨draws', seqs', rfl⟩ := h'
  exact ⟨draws + draws', seqs + seqs', take_take _ _ _ _ _⟩

/-- What staging has done: drawn from the host, and moved the staged copy by a chain
of effects whose events were collected. -/
def Stages (n : Nat) (g g' : SessionGraph R) (staged staged' : Staged R) : Prop :=
  Quiet g g' ∧ ∃ evs, Trace stagedKinds g.drawn g'.drawn n staged.snapshot staged'.snapshot evs ∧
    staged'.events = staged.events ++ evs

theorem stages_of_effect {staged staged' : Staged R} {evs : List EventData} (hquiet : Quiet g g')
    (heffect : Effect stagedKinds g.drawn g'.drawn staged.snapshot staged'.snapshot evs)
    (hevs : staged'.events = staged.events ++ evs) : Stages 1 g g' staged staged' := by
  refine ⟨hquiet, evs, .single heffect ?_, hevs⟩
  obtain ⟨draws, seqs, rfl⟩ := hquiet
  exact Nat.le_add_right _ _

theorem stageOp_spec (g : SessionGraph R) (staged : Staged R) (opIndex : Nat) (op : Op R) :
    Ensures (stageOp staged opIndex op) g (fun _ => Quiet g) fun staged' g' =>
      Stages 1 g g' staged staged' := by
  cases op with
  | createSession name cwd command title =>
    refine .bind (.mapError (stageCreateSession_spec g staged.snapshot _ cwd command title)) ?_
    rintro ⟨s, sid, wid, pid, evs⟩ g' ⟨hquiet, hadds⟩
    exact stages_of_effect hquiet (.addSession (Or.inl rfl) hadds) rfl
  | createWindow session title cwd command =>
    refine .require_bind (fun _ _ => .refl g) fun sid hsid => ?_
    refine .bind_ok (exec_listValues _ _) ?_
    refine .bind (.mapError (stageCreateWindow_spec g staged.snapshot sid title _ command)) ?_
    rintro ⟨s, wid, pid, evs⟩ g' ⟨hquiet, hadds⟩
    exact stages_of_effect hquiet (.addWindow (Or.inr (Or.inl rfl)) hadds) rfl
  | splitPane target direction ratio command cwd =>
    refine .require_bind (fun _ _ => .refl g) fun pid hpid => ?_
    refine .bind
      (.mapError (stageSplitPane_spec g staged.snapshot pid direction ratio command cwd)) ?_
    rintro ⟨s, pid, wid, sid, evs⟩ g' ⟨hquiet, hsplits⟩
    exact stages_of_effect hquiet (.splitPane (Or.inr (Or.inr rfl)) hsplits) rfl

theorem stageOps_spec (ops : List (Op R)) (g : SessionGraph R) (staged : Staged R) (opIndex : Nat) :
    Ensures (stageOps staged opIndex ops) g (fun _ => Quiet g) fun staged' g' =>
      Stages ops.length g g' staged staged' := by
  induction ops generalizing g staged opIndex with
  | nil => exact ⟨.refl g, [], .refl _ le_rfl, (List.append_nil _).symm⟩
  | cons op rest ih =>
    refine .bind (stageOp_spec g staged opIndex op) ?_
    rintro staged₁ g₁ ⟨hquiet₁, evs₁, htrace₁, hevs₁⟩
    refine (ih g₁ staged₁ (opIndex + 1)).mono (fun _ _ h => hquiet₁.trans h) ?_
    rintro staged₂ g₂ ⟨hquiet₂, evs₂, htrace₂, hevs₂⟩
    refine ⟨hquiet₁.trans hquiet₂, evs₁ ++ evs₂, ?_, ?_⟩
    · rw [List.length_cons, Nat.add_comm]
      exact htrace₁.trans htrace₂
    · rw [hevs₂, hevs₁, List.append_assoc]

/-- A batch that is accepted commits once, whatever number of effects it staged. -/
theorem applyBatch_spec (g : SessionGraph R) (ops : List (Op R)) :
    Ensures (applyBatch ops) g (fun _ => Quiet g) fun _ g' =>
      ∃ (staged : Staged R) (g₁ : SessionGraph R) (correlationId : Str),
        0 < ops.length ∧ Stages ops.length g g₁ ⟨g.state, [], []⟩ staged ∧
        g' = ((g₁.commit staged.snapshot).take 1 0).publish (some correlationId) staged.events := by
  refine .guard (fun _ => .refl g) fun hne => ?_
  refine .bind_ok (exec_current g) ?_
  refine .bind (stageOps_spec ops g _ 0) ?_
  intro staged g₁ hstages
  refine ⟨staged, g₁, _, ?_, hstages, rfl⟩
  rw [List.length_pos_iff]
  simpa using hne

theorem applyBatch_commits (g : SessionGraph R) (ops : List (Op R)) :
    Ensures (applyBatch ops) g (fun _ => Quiet g) fun _ g' => Commits stagedKinds g g' := by
  refine (applyBatch_spec g ops).mono (fun _ _ h => h) ?_
  rintro _ g' ⟨staged, g₁, c, hpos, ⟨⟨draws, seqs, rfl⟩, evs, htrace, hevs⟩, rfl⟩
  have hall : staged.events = evs := by simpa using hevs
  rw [hall]
  exact .once draws seqs 1 ops.length (some c) hpos (htrace.mono subset_rfl (Nat.le_add_right _ _))

/-- Whether a command may create a pane that no layout shows. -/
def GraphCommand.isBare : GraphCommand R → Bool
  | createPane .. => true
  | _ => false

/-- Whether a command belongs to the PTY protocol, which keeps its state in the side
maps. -/
def GraphCommand.isProtocol : GraphCommand R → Bool
  | setPaneProgramStatus .. | claimPanePty .. | setPaneExitStatusOwned .. => true
  | _ => false

/-- The kinds of effects a command can have. -/
def GraphCommand.kinds : GraphCommand R → Set Kind
  | createSession .. => {.addSession}
  | destroySession .. => {.removeSession}
  | renameSession .. | setSessionTag .. | setSessionTheme .. | focusWindow .. | reorderWindow .. =>
    {.editSession}
  | createWindow .. => {.addWindow}
  | destroyWindow .. => {.removeWindow}
  | renameWindow .. => {.renameWindow}
  | createPane .. => {.addPane}
  | destroyPane .. => {.removePane}
  | setPaneExitStatus .. | setPaneProgramStatus .. | claimPanePty .. | setPaneExitStatusOwned .. =>
    {.reportPane}
  | setPaneTag .. | setPaneTheme .. | setPaneTitle .. | setPaneOscTitle .. => {.dressPane}
  | splitPane .. => {.splitPane}
  | focusPane .. | focusPaneDirection .. | resizePane .. | zoomPane .. | zoomPaneIfFocused ..
  | swapPanes .. => {.relayout}
  | destroyPaneAndEmptyParents .. => {.removePane, .removeWindow, .removeSession}
  | snapshot => ∅
  | applyBatch .. => stagedKinds

section

omit [Host] [F32 R]

/-- Only the bare creation adds a pane that no layout shows. -/
theorem GraphCommand.isBare_of_mem_kinds {cmd : GraphCommand R} (h : .addPane ∈ cmd.kinds) :
    cmd.isBare = true := by
  cases cmd with
  | createPane wid cwd command => rfl
  | destroyPaneAndEmptyParents id => simp [kinds] at h
  | applyBatch ops => simp [kinds, stagedKinds] at h
  | snapshot => cases h
  | _ => cases h

/-- An operation answered: what it ensures, whatever becomes of its value. -/
theorem answer_ensures {α : Type} {reply : α → Reply} {op : GraphM R GraphError α}
    {g : SessionGraph R} {E : SessionGraph R → Prop} {Q : SessionGraph R → Prop}
    (h : Ensures op g (fun _ => E) fun _ => Q) :
    Ensures (answer reply op) g (fun _ => E) fun _ => Q :=
  .bind (.mapError h) fun _ _ hq => hq

theorem Ensures.snd {α ε : Type} {x : GraphM R ε α} {g : SessionGraph R}
    {P : SessionGraph R → Prop} (h : Ensures x g (fun _ => P) fun _ => P) : P (exec x g).2 := by
  rw [Ensures] at h
  split at h
  · rename_i heq
    rw [heq]
    exact h
  · rename_i heq
    rw [heq]
    exact h

end

theorem setPaneExit_commits (g : SessionGraph R) (id : PaneId) (exit : ProgramExit) :
    Ensures (setPaneExit id exit) g (fun _ => Commits {.reportPane} g)
      fun _ => Commits {.reportPane} g := by
  refine (setPaneExit_spec g id exit).mono ?_ ?_
  · rintro _ g' ⟨rfl, -⟩
    exact .quiet (.refl _)
  · rintro _ g' ⟨pane, sid, hpane, hcommitted⟩
    exact .of_effect hcommitted (.editPane (Or.inr rfl) hpane (fun _ => ⟨rfl, rfl, rfl, rfl, rfl⟩)
      (by simp [EventData.IsNotice]))

theorem setPaneProgramStatus_moves (g : SessionGraph R) (id : PaneId) (status : PaneStatusUpdate) :
    Ensures (setPaneProgramStatus id status) g (fun _ => Moves {.reportPane} g)
      fun _ => Moves {.reportPane} g := by
  refine (setPaneProgramStatus_spec g id status).mono ?_ ?_
  · rintro _ g' ⟨rfl, -⟩
    exact .of_quiet (.refl _)
  · rintro _ g' ⟨pane, hpane, ⟨-, rfl⟩ | ⟨-, -, rfl⟩ | ⟨-, ⟨-, rfl⟩ | ⟨sid, hcommitted⟩⟩⟩
    · exact .of_quiet (.refl _)
    · exact .watermarked g id _
    · exact .watermarked g id _
    · exact (Moves.watermarked g id _).trans (.of_effect hcommitted (.editPane (Or.inr rfl) hpane
        (fun _ => ⟨rfl, rfl, rfl, rfl, rfl⟩) (by simp [EventData.IsNotice])))

theorem setPaneExitStatusOwned_moves (g : SessionGraph R) (id : PaneId) (exit : ProgramExit)
    (incarnation : Nat) (finalStatus : Option PaneStatusUpdate) :
    Ensures (setPaneExitStatusOwned id exit incarnation finalStatus) g
      (fun _ => Moves {.reportPane} g) fun _ => Moves {.reportPane} g := by
  have hexit : ∀ g : SessionGraph R, Ensures (setPaneExit id exit) g
      (fun _ => Moves {.reportPane} g) fun _ => Moves {.reportPane} g :=
    fun g => (setPaneExit_commits g id exit).mono (fun _ _ h => .of_commits h)
      fun _ _ h => .of_commits h
  refine .bind_ok (exec_get g) ?_
  refine .ite (fun _ => .of_quiet (.refl g)) fun _ => ?_
  cases finalStatus with
  | none => exact .bind_ok (exec_pure _ _) (hexit g)
  | some status =>
    refine .bind (setPaneProgramStatus_moves g id status) fun _ g₁ hmoves => ?_
    exact (hexit g₁).mono (fun _ _ h => hmoves.trans h) fun _ _ h => hmoves.trans h

theorem claimPanePty_moves (g : SessionGraph R) (id : PaneId) (incarnation : Nat) :
    Ensures (claimPanePty id incarnation) g (fun _ => Moves {.reportPane} g)
      fun _ => Moves {.reportPane} g := by
  refine (claimPanePty_spec g id incarnation).mono ?_ ?_
  · rintro _ g' (⟨rfl, -⟩ | ⟨rfl, -⟩)
    · exact .of_quiet (.refl _)
    · exact .owned g id incarnation
  · rintro claimed g' ⟨pane, hpane, hclaimed⟩
    split_ifs at hclaimed
    · obtain ⟨-, ⟨-, rfl⟩ | ⟨sid, hcommitted⟩⟩ := hclaimed
      · exact .owned g id incarnation
      · exact (Moves.owned g id incarnation).trans (.of_effect hcommitted
          (.editPane (Or.inr rfl) hpane (fun _ => ⟨rfl, rfl, rfl, rfl, rfl⟩)
            (by simp [EventData.IsNotice])))
    · obtain ⟨rfl, -⟩ := hclaimed
      exact .of_quiet (.refl _)

theorem commits_editPane {id : PaneId} (h : EditsPane g g' id) :
    Commits {.dressPane} g g' := by
  obtain ⟨pane, edit, evs, hpane, hkeeps, hevs, hcommitted⟩ := h
  exact .of_effect hcommitted (.editPane (Or.inl ⟨rfl, hkeeps⟩) hpane hkeeps.keepsPlace hevs)

theorem commits_editSession {kinds : Set Kind} (hkind : .editSession ∈ kinds) {id : SessionId}
    (h : ∃ session edit evs, g.state.sessions.get id = some session ∧
      SessionEdit g.state id session edit evs ∧ Committed g g' (g.state.editSession id edit) evs) :
    Commits kinds g g' := by
  obtain ⟨session, edit, evs, hsession, hedit, hcommitted⟩ := h
  exact .of_effect hcommitted (.editSession hkind hsession hedit)

/-- The answer to an operation that fails without a trace and else commits. -/
theorem answer_commits {α : Type} {reply : α → Reply} {op : GraphM R GraphError α}
    {Q : α → SessionGraph R → Prop} {kinds : Set Kind} (h : Ensures op g (fun _ => Quiet g) Q)
    (hq : ∀ a g', Q a g' → Commits kinds g g') :
    Ensures (answer reply op) g (fun _ => Commits kinds g) fun _ => Commits kinds g :=
  answer_ensures (h.mono (fun _ _ => .quiet) hq)

theorem commits_relayout (h : ∃ wid, MovesLayout g g' wid) : Commits {.relayout} g g' := by
  obtain ⟨wid, s, evs, hcommitted, hrelayouts⟩ := h
  exact .of_effect hcommitted (.relayout rfl hrelayouts)

/-- An operation that may also succeed without a commit. -/
theorem commits_or_same {kinds : Set Kind} {moves : Prop} (h : g' = g ∨ moves)
    (hmoves : moves → Commits kinds g g') : Commits kinds g g' :=
  h.elim (fun heq => .quiet (heq ▸ .refl g)) hmoves

/-- A command outside the PTY protocol commits at most once, whether it succeeds or not. -/
theorem body_commits (g : SessionGraph R) (cmd : GraphCommand R)
    (hprotocol : cmd.isProtocol = false) :
    Ensures cmd.body g (fun _ => Commits cmd.kinds g) fun _ => Commits cmd.kinds g := by
  cases cmd with
  | createSession name cwd command =>
    refine answer_commits (createSession_spec g name cwd command) ?_
    rintro _ g' ⟨s, evs, hcommitted, hadds⟩
    exact .of_effect hcommitted (.addSession rfl hadds)
  | destroySession id ev =>
    refine answer_commits (destroySession_spec g id ev) ?_
    rintro _ g' ⟨_, s, evs, -, -, hcommitted, hremoves⟩
    exact .of_effect hcommitted (.removeSession rfl hremoves)
  | renameSession id name ev =>
    refine answer_commits (renameSession_spec g id name ev) ?_
    rintro _ g' ⟨session, edit, evs, hsession, -, -, hedit, hcommitted⟩
    exact .of_effect hcommitted (.editSession rfl hsession hedit)
  | createWindow sid title cwd command =>
    refine answer_commits (createWindow_spec g sid title cwd command) ?_
    rintro _ g' ⟨s, evs, hcommitted, hadds⟩
    exact .of_effect hcommitted (.addWindow rfl hadds)
  | destroyWindow id ev =>
    refine answer_ensures ((destroyWindow_spec g id ev).mono ?_ ?_)
    · rintro _ g' rfl
      exact .quiet (.refl _)
    · rintro _ g' ⟨_, s, evs, -, -, hcommitted, hremoves⟩
      exact .of_effect hcommitted (.removeWindow rfl hremoves)
  | renameWindow id title ev =>
    refine answer_commits (renameWindow_spec g id title ev) ?_
    rintro _ g' ⟨_, s, evs, -, -, hcommitted, hrenames⟩
    exact .of_effect hcommitted (.renameWindow rfl hrenames)
  | focusWindow id ev =>
    refine answer_commits (focusWindow_spec g id ev) ?_
    rintro _ g' ⟨window, session, edit, -, -, hsession, hedit, hcommitted⟩
    exact .of_effect hcommitted (.editSession rfl hsession hedit)
  | reorderWindow id index ev =>
    refine answer_commits (reorderWindow_spec g id index ev) ?_
    rintro _ g' ⟨window, session, edit, -, -, hsession, hedit, hcommitted⟩
    exact .of_effect hcommitted (.editSession rfl hsession hedit)
  | createPane wid cwd command =>
    refine answer_commits (createPane_spec g wid cwd command) ?_
    rintro _ g' ⟨s, evs, hcommitted, hadds⟩
    exact .of_effect hcommitted (.addPane rfl hadds)
  | destroyPane id ev =>
    refine answer_ensures ((destroyPane_spec g id ev).mono ?_ ?_)
    · rintro _ g' ⟨rfl, -⟩
      exact .quiet (.refl _)
    · rintro _ g' ⟨_, s, evs, -, -, hcommitted, hremoves⟩
      exact .of_effect hcommitted (.removePane rfl hremoves)
  | setPaneExitStatus id exitStatus => exact answer_ensures (setPaneExit_commits g id _)
  | setSessionTag id key value =>
    exact answer_commits (setSessionTag_spec g id key value) fun _ _ h => commits_editSession rfl h
  | setPaneTag id key value =>
    exact answer_commits (setPaneTag_spec g id key value) fun _ _ h => commits_editPane h
  | setSessionTheme id theme =>
    exact answer_commits (setSessionTheme_spec g id theme) fun _ _ h => commits_editSession rfl h
  | setPaneTheme id theme =>
    exact answer_commits (setPaneTheme_spec g id theme) fun _ _ h => commits_editPane h
  | setPaneTitle id title auto =>
    exact answer_commits (setPaneTitle_spec g id title auto) fun _ _ h => commits_editPane h
  | setPaneOscTitle id title =>
    exact answer_commits (setPaneOscTitle_spec g id title) fun _ _ h =>
      commits_or_same h commits_editPane
  | setPaneProgramStatus id status => cases hprotocol
  | claimPanePty id incarnation => cases hprotocol
  | setPaneExitStatusOwned id exit incarnation finalStatus => cases hprotocol
  | splitPane target direction ratio command =>
    refine answer_commits (splitPane_spec g target direction ratio command) ?_
    rintro _ g' ⟨s, evs, hcommitted, hsplits⟩
    exact .of_effect hcommitted (.splitPane rfl hsplits)
  | focusPane id =>
    exact answer_commits (focusPane_spec g id) fun _ _ h => commits_relayout h
  | focusPaneDirection wid direction viewport =>
    exact answer_commits (focusPaneDirection_spec g wid direction viewport) fun _ _ h =>
      commits_or_same h commits_relayout
  | resizePane id direction delta ev =>
    exact answer_commits (resizePane_spec g id direction delta ev) fun _ _ h =>
      commits_or_same h fun hmoves => commits_relayout hmoves.moves
  | zoomPane id ev =>
    exact answer_commits (zoomPane_spec g id ev) fun _ _ h =>
      commits_or_same h fun hmoves => commits_relayout hmoves.moves
  | zoomPaneIfFocused id focused =>
    exact answer_commits (zoomPaneIfFocused_spec g id focused) fun _ _ h =>
      commits_or_same h fun hmoves => commits_relayout hmoves.moves
  | destroyPaneAndEmptyParents id =>
    refine answer_commits (destroyPaneAndEmptyParents_spec g id) ?_
    rintro _ g' ⟨s, evs, hcommitted, hpane | ⟨_, -, -, hwindow | ⟨_, -, hsession⟩⟩⟩
    · exact .of_effect hcommitted (.removePane (Or.inl rfl) hpane)
    · exact .of_effect hcommitted (.removeWindow (Or.inr (Or.inl rfl)) hwindow)
    · exact .of_effect hcommitted (.removeSession (Or.inr (Or.inr rfl)) hsession)
  | swapPanes a b ev =>
    exact answer_commits (swapPanes_spec g a b ev) fun _ _ h => commits_relayout h.moves
  | snapshot => exact .quiet (.refl g)
  | applyBatch ops =>
    refine .bind (.mapError ((applyBatch_commits g ops).mono (fun _ _ => .quiet) fun _ _ h => h)) ?_
    exact fun _ _ h => h

/-- Every command moves the graph by a chain of effects, whether it succeeds or not. -/
theorem step_moves (g : SessionGraph R) (cmd : GraphCommand R) :
    Moves cmd.kinds g (g.step cmd).2 := by
  have hcommits : cmd.isProtocol = false → Moves cmd.kinds g (g.step cmd).2 := by
    intro hprotocol
    exact .of_commits (Ensures.snd (body_commits g cmd hprotocol))
  cases cmd with
  | setPaneProgramStatus id status =>
    exact Ensures.snd (answer_ensures (setPaneProgramStatus_moves g id status))
  | claimPanePty id incarnation =>
    exact Ensures.snd (answer_ensures (claimPanePty_moves g id incarnation))
  | setPaneExitStatusOwned id exit incarnation finalStatus =>
    exact Ensures.snd
      (answer_ensures (setPaneExitStatusOwned_moves g id exit incarnation finalStatus))
  | _ => exact hcommits rfl

theorem Moves.mono {kinds kinds' : Set Kind} (h : Moves kinds g g')
    (hsub : kinds ⊆ kinds') : Moves kinds' g g' := by
  obtain ⟨n, evs, htrace, hlog, hle, hlt⟩ := h
  exact ⟨n, evs, htrace.mono hsub le_rfl, hlog, hle, hlt⟩

/-- A run moves the graph by one chain of effects, of the kinds of its commands. -/
theorem run_moves {kinds : Set Kind} (g : SessionGraph R) (cmds : List (GraphCommand R))
    (hkinds : ∀ cmd ∈ cmds, cmd.kinds ⊆ kinds) : Moves kinds g (g.run cmds) := by
  induction cmds generalizing g with
  | nil => exact .of_quiet (.refl g)
  | cons cmd rest ih =>
    have hfirst := (step_moves g cmd).mono (hkinds cmd List.mem_cons_self)
    have hrest := ih (g.step cmd).2 fun cmd' hmem => hkinds cmd' (List.mem_cons_of_mem cmd hmem)
    exact hfirst.trans hrest

end Shux
