/-
# What each operation does

One statement for each operation: it fails and has drawn from the host at most, or
it succeeds, having passed the guards it checks, with one commit of one effect. The
proofs walk through the bodies line by line; everything later reads the operations
through these statements only.
-/

import Shux.Core.Exec

namespace Shux

variable {R ε : Type} [Host]

open Proc SessionGraph WindowLayout SessionGraphSnapshot

variable (g : SessionGraph R)
variable {expected : Option Version} (id : PaneId)
variable (s : SessionGraphSnapshot R)

/-- Nothing happened but draws from the host. -/
def Quiet (g g' : SessionGraph R) : Prop := ∃ draws seqs, g' = g.take draws seqs

/-- After some draws, `s` was committed and `evs` were published. -/
def Committed (g g' : SessionGraph R) (s : SessionGraphSnapshot R) (evs : List EventData) : Prop :=
  ∃ draws seqs, g' = ((g.take draws seqs).commit s).publish none evs

/-- A request may go ahead: it names no version, or the one the entity has. -/
def Allows (expected : Option Version) (actual : Version) : Prop :=
  ∀ v, expected = some v → actual = v

section

omit [Host]

theorem Quiet.refl : Quiet g g := ⟨0, 0, rfl⟩

theorem Quiet.take (draws seqs : Nat) : Quiet g (g.take draws seqs) := ⟨draws, seqs, rfl⟩

theorem Committed.now (evs : List EventData) :
    Committed g ((g.commit s).publish none evs) s evs := ⟨0, 0, rfl⟩

theorem Committed.state {g g' : SessionGraph R} {s : SessionGraphSnapshot R}
    {evs : List EventData} (h : Committed g g' s evs) : g'.state = s := by
  obtain ⟨draws, seqs, rfl⟩ := h
  rfl

theorem allows_of_checkVersion {resource : Str} {id : Uuid}
    {actual : Version} (h : checkVersion resource id expected actual = .ok ()) :
    Allows expected actual := by
  intro v hv
  subst hv
  rw [checkVersion] at h
  split_ifs at h with hne
  exact not_not.mp hne

end

section

omit [Host]

theorem length_autoDerivedTitle (command : List Str) (cwd : PathBuf) :
    (Pane.autoDerivedTitle command cwd).length ≤ maxTitleChars := by
  have hfrom : ∀ {name : Option Str} {title : Str}, Pane.titleFrom name = some title →
      title.length ≤ maxTitleChars := by
    intro name title h
    cases name with
    | none => cases h
    | some raw =>
      simp only [Pane.titleFrom] at h
      split_ifs at h
      cases h
      exact length_sanitizeTitleClamped raw
  rw [Pane.autoDerivedTitle]
  split
  · rename_i title h
    exact hfrom h
  · split
    · rename_i title h
      exact hfrom h
    · dsimp only
      split_ifs
      · decide
      · exact length_sanitizeTitleClamped _

theorem goodTitle_defaultTitle (sid : SessionId) (command : List Str)
    (cwd : PathBuf) : GoodTitle (s.defaultTitle sid command cwd) := by
  have hbase := goodTitle_titleBase (Pane.autoDerivedTitle command cwd)
  have hlen := length_titleBase (length_autoDerivedTitle command cwd)
  rw [defaultTitle]
  cases hsearch : s.searchWindowTitle sid
      (titleBase (Pane.autoDerivedTitle command cwd)) with
  | none => exact hbase
  | some title =>
    obtain ⟨-, n, -, hn, rfl⟩ := FirstFree.of_search_eq_some hsearch
    exact goodTitle_titleCandidate hbase hlen (by omega)

end

theorem stageCreateSession_spec (name : Str)
    (cwd : PathBuf) (command : List Str) (title : Option Str) :
    Ensures (stageCreateSession s name cwd command title) g (fun _ => Quiet g) fun r g' =>
      Quiet g g' ∧ AddsSession g.drawn g'.drawn s r.1 r.2.2.2.2 := by
  refine .require_bind (fun _ _ => .refl g) fun _ hname => ?_
  refine .guard (fun _ => .refl g) fun hfree => ?_
  refine .bind_ok (exec_SessionId_new g) ?_
  refine .require_bind (fun _ _ => .take g 1 0) fun _ hcapacity => ?_
  refine .bind_ok (exec_PaneId_new _) ?_
  refine .bind_ok (exec_WindowId_new _) ?_
  refine .bind_ok (exec_newPane _ _ _ _) ?_
  -- Both ways to the title end in a good one, at most three draws later.
  refine .bind (P := fun t g' => GoodTitle t ∧ ∃ k, g' = g.take (4 + k) 0) ?_ ?_
  · split
    · rename_i c raw
      cases hraw : validateWindowTitle (c :: raw) with
      | error e => exact ⟨4, 0, rfl⟩
      | ok t => exact ⟨goodTitle_of_validate hraw, 0, rfl⟩
    · exact ⟨goodTitle_defaultTitle _ _ _ _, 3, rfl⟩
  · rintro t g' ⟨hgood, k, rfl⟩
    refine .bind_ok (exec_SessionId_new _) ?_
    refine .bind_ok (exec_WindowId_new _) ?_
    refine .bind_ok (exec_newSession _ _ _) ?_
    simp only [take_take, take_drawn]
    refine ⟨.take g _ _, .intro _ _ ?_ ?_ ?_ hname (by simpa using hfree) ?_ hcapacity hgood⟩
    all_goals exact ⟨_, by omega, by rw [take_drawn]; omega, rfl⟩

theorem stageCreateWindow_spec (sid : SessionId)
    (title : Str) (cwd : PathBuf) (command : List Str) :
    Ensures (stageCreateWindow s sid title cwd command) g (fun _ => Quiet g) fun r g' =>
      Quiet g g' ∧ AddsWindow g.drawn g'.drawn s r.1 r.2.2.2 := by
  refine .guard (fun _ => .refl g) fun hsession => ?_
  refine .require_bind (fun _ _ => .refl g) fun t htitle => ?_
  refine .guard (fun _ => .refl g) fun hfree => ?_
  refine .require_bind (fun _ _ => .refl g) fun _ hcapacity => ?_
  refine .bind_ok (exec_PaneId_new _) ?_
  refine .bind_ok (exec_WindowId_new _) ?_
  refine .bind_ok (exec_newPane _ _ _ _) ?_
  refine .bind_ok (exec_WindowId_new _) ?_
  simp only [take_take, take_drawn]
  rw [Bool.not_eq_true', Bool.not_eq_false, FinMap.contains_iff] at hsession
  obtain ⟨session, hsession⟩ := hsession
  refine ⟨.take g _ _, .intro _ ?_ ?_ hsession (goodTitle_of_validate htitle)
    (by simpa using hfree) hcapacity⟩
  all_goals exact ⟨_, by omega, by rw [take_drawn]; omega, rfl⟩

theorem stageSplitPane_spec [F32 R] (target : PaneId)
    (direction : Direction) (ratio : R) (command : List Str) (cwd : Option PathBuf) :
    Ensures (stageSplitPane s target direction ratio command cwd) g (fun _ => Quiet g) fun r g' =>
      Quiet g g' ∧ SplitsPane g.drawn g'.drawn s target r.1 r.2.2.2.2 := by
  refine .okOr_bind (fun _ => .refl g) fun pane hpane => ?_
  refine .okOr_bind (fun _ => .refl g) fun window hwindow => ?_
  refine .require_bind (fun _ _ => .refl g) fun _ hcapacity => ?_
  refine .bind_ok (exec_newPane _ _ _ _) ?_
  refine .guard (fun _ => .take g 1 0) fun hok => ?_
  rw [Bool.not_eq_true', Bool.not_eq_false] at hok
  obtain ⟨tree, htree, hlayout⟩ := splitPane_ok hok
  have heffect := SplitsPane.intro ⟨g.drawn, le_rfl, Nat.lt_succ_self _, rfl⟩ hpane hwindow
    hcapacity htree
  rw [zoomEvents_none, ← hlayout] at heffect
  exact ⟨.take g 1 0, heffect⟩

theorem createSession_spec (name : Str) (cwd : PathBuf) (command : List Str) :
    Ensures (createSessionWithCommand name cwd command) g (fun _ => Quiet g) fun _ g' =>
      ∃ s evs, Committed g g' s evs ∧ AddsSession g.drawn g'.drawn g.state s evs := by
  have hstage := stageCreateSession_spec g g.state name cwd command none
  rw [Ensures, exec_createSession]
  rw [Ensures] at hstage
  split at hstage
  · rename_i r g' heq
    obtain ⟨⟨draws, seqs, rfl⟩, hadds⟩ := hstage
    rw [heq]
    exact ⟨_, _, ⟨draws, seqs, rfl⟩, hadds⟩
  · rename_i e g' heq
    rw [heq]
    exact hstage

theorem createWindow_spec (sid : SessionId) (title : Str) (cwd : PathBuf) (command : List Str) :
    Ensures (createWindowWithCommand sid title cwd command) g (fun _ => Quiet g) fun _ g' =>
      ∃ s evs, Committed g g' s evs ∧ AddsWindow g.drawn g'.drawn g.state s evs := by
  have hstage := stageCreateWindow_spec g g.state sid title cwd command
  rw [Ensures]
  rw [Ensures] at hstage
  rcases exec_createWindow g sid title cwd command with heq | ⟨⟨e, heq⟩, -⟩
  · rw [heq]
    split at hstage
    · rename_i r g' hexec
      obtain ⟨⟨draws, seqs, rfl⟩, hadds⟩ := hstage
      rw [hexec]
      exact ⟨_, _, ⟨draws, seqs, rfl⟩, hadds⟩
    · rename_i e g' hexec
      rw [hexec]
      exact hstage
  · rw [heq]
    exact .refl g

theorem destroySession_spec (id : SessionId) (ev : Option Version) :
    Ensures (destroySession id ev) g (fun _ => Quiet g) fun _ g' =>
      ∃ session s evs, g.state.sessions.get id = some session ∧ Allows ev session.version ∧
        Committed g g' s evs ∧ RemovesSession g.state id s evs := by
  refine .bind_ok (exec_current g) ?_
  refine .okOr_bind (fun _ => .refl g) fun session hsession => ?_
  refine .require_bind (fun _ _ => .refl g) fun _ hversion => ?_
  refine ⟨session, _, _, hsession, allows_of_checkVersion hversion, ⟨0, 0, ?_⟩,
    .intro hsession (Host.iter_perm g.drawn _) _ rfl⟩
  simp only [take_zero]
  rw [List.append_assoc, ← publish_publish, ← publish_publish]
  rfl

theorem renameSession_spec (id : SessionId) (name : Str) (ev : Option Version) :
    Ensures (renameSession id name ev) g (fun _ => Quiet g) fun _ g' =>
      ∃ session edit evs, g.state.sessions.get id = some session ∧ Allows ev session.version ∧
        (edit session).version = session.version + 1 ∧
        SessionEdit g.state id session edit evs ∧
        Committed g g' (g.state.editSession id edit) evs := by
  refine .require_bind (fun _ _ => .refl g) fun _ hname => ?_
  refine .bind_ok (exec_current g) ?_
  refine .okOr_bind (fun _ => .refl g) fun session hsession => ?_
  refine .require_bind (fun _ _ => .refl g) fun _ hversion => ?_
  refine .guard (fun _ => .refl g) fun hfree => ?_
  exact ⟨session, _, _, hsession, allows_of_checkVersion hversion, rfl,
    .rename hname (by simpa using hfree), .now g _ _⟩

/-- One session is edited and nothing else. -/
def EditsSession (g g' : SessionGraph R) (id : SessionId) : Prop :=
  ∃ session edit evs, g.state.sessions.get id = some session ∧
    SessionEdit g.state id session edit evs ∧
    Committed g g' (g.state.editSession id edit) evs

theorem setSession_spec (id : SessionId) {edit : Session → Session}
    (hedit : ∃ (tags : Session → Tags) (theme : Session → Option ThemeRef),
      edit = fun x => { x with tags := tags x, theme := theme x }) :
    Ensures (setSession id edit) g (fun _ => Quiet g) fun _ g' => EditsSession g g' id := by
  refine .bind_ok (exec_current g) ?_
  refine .guard (fun _ => .refl g) fun hsession => ?_
  rw [Bool.not_eq_true', Bool.not_eq_false, FinMap.contains_iff] at hsession
  obtain ⟨session, hsession⟩ := hsession
  obtain ⟨tags, theme, rfl⟩ := hedit
  exact ⟨session, _, _, hsession, .decorate, .now g _ []⟩

theorem setSessionTag_spec (id : SessionId) (key value : Str) :
    Ensures (setSessionTag id key value) g (fun _ => Quiet g) fun _ g' => EditsSession g g' id :=
  setSession_spec g id ⟨fun x => x.tags.insert key value, fun x => x.theme, rfl⟩

theorem setSessionTheme_spec (id : SessionId) (theme : Option ThemeRef) :
    Ensures (setSessionTheme id theme) g (fun _ => Quiet g) fun _ g' => EditsSession g g' id :=
  setSession_spec g id ⟨fun x => x.tags, fun _ => theme, rfl⟩

/-- The window's version is checked and only its session is edited. -/
def EditsSessionOf (g g' : SessionGraph R) (id : WindowId) (ev : Option Version) : Prop :=
  ∃ window session edit, g.state.windows.get id = some window ∧ Allows ev window.version ∧
    g.state.sessions.get window.sessionId = some session ∧
    SessionEdit g.state window.sessionId session edit [] ∧
    Committed g g' (g.state.editSession window.sessionId edit) []

theorem focusWindow_spec (id : WindowId) (ev : Option Version) :
    Ensures (focusWindow id ev) g (fun _ => Quiet g) fun _ g' => EditsSessionOf g g' id ev := by
  refine .bind_ok (exec_current g) ?_
  refine .okOr_bind (fun _ => .refl g) fun window hwindow => ?_
  refine .require_bind (fun _ _ => .refl g) fun _ hversion => ?_
  refine .okOr_bind (fun _ => .refl g) fun session hsession => ?_
  refine .guard (fun _ => .refl g) fun hmem => ?_
  exact ⟨window, session, _, hwindow, allows_of_checkVersion hversion, hsession,
    .focus (by simpa using hmem), .now g _ []⟩

theorem reorderWindow_spec (id : WindowId) (index : Nat) (ev : Option Version) :
    Ensures (reorderWindow id index ev) g (fun _ => Quiet g) fun _ g' =>
      EditsSessionOf g g' id ev := by
  refine .bind_ok (exec_current g) ?_
  refine .okOr_bind (fun _ => .refl g) fun window hwindow => ?_
  refine .require_bind (fun _ _ => .refl g) fun _ hversion => ?_
  refine .okOr_bind (fun _ => .refl g) fun session hsession => ?_
  refine .guard (fun _ => .refl g) fun hindex => ?_
  exact ⟨window, session, _, hwindow, allows_of_checkVersion hversion, hsession,
    .reorder (not_le.mp hindex), .now g _ []⟩

omit [Host] in
theorem renameWindow_spec (id : WindowId) (title : Str) (ev : Option Version) :
    Ensures (renameWindow id title ev) g (fun _ => Quiet g) fun _ g' =>
      ∃ window s evs, g.state.windows.get id = some window ∧ Allows ev window.version ∧
        Committed g g' s evs ∧ RenamesWindow g.state id s evs := by
  refine .require_bind (fun _ _ => .refl g) fun newTitle htitle => ?_
  refine .bind_ok (exec_current g) ?_
  refine .okOr_bind (fun _ => .refl g) fun window hwindow => ?_
  refine .require_bind (fun _ _ => .refl g) fun _ hversion => ?_
  refine .okOr_bind (fun _ => .refl g) fun session hsession => ?_
  refine .guard (fun _ => .refl g) fun hfree => ?_
  refine ⟨window, _, _, hwindow, allows_of_checkVersion hversion, .now g _ _,
    .intro hwindow hsession (goodTitle_of_validate htitle) ?_⟩
  intro other hother hne w hw heq
  apply hfree
  rw [List.any_eq_true]
  exact ⟨other, hother, by simp [hne, hw, heq]⟩

theorem destroyWindow_spec (id : WindowId) (ev : Option Version) :
    Ensures (destroyWindow id ev) g (fun _ g' => g' = g) fun _ g' =>
      ∃ window s evs, g.state.windows.get id = some window ∧ Allows ev window.version ∧
        Committed g g' s evs ∧ RemovesWindow g.state id s evs := by
  refine .bind_ok (exec_current g) ?_
  refine .okOr_bind (fun _ => rfl) fun window hwindow => ?_
  refine .require_bind (fun _ _ => rfl) fun _ hversion => ?_
  refine .okOr_bind (fun _ => rfl) fun session hsession => ?_
  refine .guard (fun _ => rfl) fun hmore => ?_
  refine ⟨window, _, _, hwindow, allows_of_checkVersion hversion, ⟨0, 0, ?_⟩,
    .intro hwindow hsession (not_le.mp hmore) (Host.iter_perm g.drawn _) _ rfl⟩
  simp only [take_zero]
  rw [← publish_publish]
  rfl

theorem createPane_spec (wid : WindowId) (cwd : PathBuf) (command : List Str) :
    Ensures (createPane wid cwd command) g (fun _ => Quiet g) fun _ g' =>
      ∃ s evs, Committed g g' s evs ∧ AddsPane g.drawn g'.drawn g.state s evs := by
  refine .bind_ok (exec_current g) ?_
  refine .okOr_bind (fun _ => .refl g) fun window hwindow => ?_
  refine .require_bind (fun _ _ => .refl g) fun _ hcapacity => ?_
  refine .bind_ok (exec_newPane _ _ _ _) ?_
  exact ⟨_, _, ⟨1, 0, rfl⟩, .intro ⟨g.drawn, le_rfl, Nat.lt_succ_self _, rfl⟩ hwindow hcapacity⟩

/-- One pane was edited in place. -/
def EditsPane (g g' : SessionGraph R) (id : PaneId) : Prop :=
  ∃ pane edit evs, g.state.panes.get id = some pane ∧ KeepsBody edit ∧
    (∀ e ∈ evs, EventData.IsNotice e) ∧ Committed g g' (g.state.editPane id edit) evs

section

omit [Host]

theorem setPane_spec {edit : Pane → Pane} (hkeeps : KeepsBody fun p => (edit p).bump) :
    Ensures (setPane id edit) g (fun _ => Quiet g) fun _ g' => EditsPane g g' id := by
  refine .bind_ok (exec_current g) ?_
  refine .guard (fun _ => .refl g) fun hpane => ?_
  rw [Bool.not_eq_true', Bool.not_eq_false, FinMap.contains_iff] at hpane
  obtain ⟨pane, hpane⟩ := hpane
  exact ⟨pane, _, [], hpane, hkeeps, by simp, .now g _ []⟩

theorem setPaneTag_spec (key value : Str) :
    Ensures (setPaneTag id key value) g (fun _ => Quiet g) fun _ g' => EditsPane g g' id :=
  setPane_spec g id fun _ => ⟨⟨rfl, rfl, rfl, rfl, rfl⟩, rfl⟩

theorem setPaneTheme_spec (theme : Option ThemeRef) :
    Ensures (setPaneTheme id theme) g (fun _ => Quiet g) fun _ g' => EditsPane g g' id :=
  setPane_spec g id fun _ => ⟨⟨rfl, rfl, rfl, rfl, rfl⟩, rfl⟩

theorem setPaneTitle_spec (title : Option Str) (auto : Option Bool) :
    Ensures (setPaneTitle id title auto) g (fun _ => Quiet g) fun _ g' => EditsPane g g' id := by
  refine .bind_ok (exec_current g) ?_
  refine .okOr_bind (fun _ => .refl g) fun pane hpane => ?_
  refine .okOr_bind (fun _ => .refl g) fun sid hsid => ?_
  refine .bind_ok (exec_commitSnapshot _ _) ?_
  have hkeeps : ∀ f : Pane → Pane,
      (∀ p, f p = ((auto.elim p p.setAutoTitle).setManualTitle title).bump) → KeepsBody f := by
    intro f hf p
    rw [hf p]
    apply SameBody.bump
    cases auto with
    | none => exact sameBody_setManualTitle p title
    | some a => exact (sameBody_setAutoTitle p a).trans (sameBody_setManualTitle _ title)
  refine .ite (fun _ => ?_) fun _ => ?_
  · exact ⟨pane, _, _, hpane, hkeeps _ fun p => by cases auto <;> rfl, by simp [EventData.IsNotice],
      .now g _ _⟩
  · exact ⟨pane, _, [], hpane, hkeeps _ fun p => by cases auto <;> rfl, by simp, .now g _ []⟩

theorem setPaneOscTitle_spec (title : Str) :
    Ensures (setPaneOscTitle id title) g (fun _ => Quiet g) fun _ g' =>
      g' = g ∨ EditsPane g g' id := by
  refine .bind_ok (exec_current g) ?_
  refine .okOr_bind (fun _ => .refl g) fun pane hpane => ?_
  refine .okOr_bind (fun _ => .refl g) fun sid hsid => ?_
  refine .ite (fun _ => Or.inl rfl) fun _ => ?_
  refine .bind_ok (exec_commitSnapshot _ _) ?_
  have hkeeps : KeepsBody fun p => (p.setOscTitle title).1.bump :=
    fun p => (sameBody_setOscTitle p title).bump
  refine .ite (fun _ => Or.inr ?_) fun _ => Or.inr ?_
  · exact ⟨pane, _, _, hpane, hkeeps, by simp [EventData.IsNotice], .now g _ _⟩
  · exact ⟨pane, _, [], hpane, hkeeps, by simp, .now g _ []⟩

theorem setPaneExit_spec (exit : ProgramExit) :
    Ensures (setPaneExit id exit) g
      (fun _ g' => g' = g ∧ ∀ pane, g.state.panes.get id = some pane →
        g.state.sessionOf pane.windowId = none)
      fun _ g' => ∃ pane sid, g.state.panes.get id = some pane ∧
        Committed g g' (g.state.editPane id (Pane.recordExit exit))
          [.paneExited id pane.windowId sid (some exit.status) exit.signal exit.byShux
            pane.command] := by
  refine .bind_ok (exec_current g) ?_
  refine .okOr_bind (fun hnone => ⟨rfl, by simp [hnone]⟩) fun pane hpane => ?_
  refine .okOr_bind (fun hnone => ⟨rfl, by simpa [hpane] using hnone⟩) fun sid hsid => ?_
  exact ⟨pane, sid, hpane, .now g _ _⟩

end

/-- The graph after a pane was claimed, the snapshot aside. -/
def SessionGraph.owned (g : SessionGraph R) (id : PaneId) (incarnation : Nat) : SessionGraph R :=
  { g with ptyOwners := g.ptyOwners.insert id incarnation }

omit [Host] in
/-- A claim changes nothing when a newer incarnation owns the pane. Otherwise it
records the owner, and brings the pane back to life if it had exited. -/
theorem claimPanePty_spec (incarnation : Nat) :
    Ensures (claimPanePty id incarnation) g
      (fun _ g' => g' = g ∧ g.state.panes.get id = none ∨ g' = g.owned id incarnation ∧
        ∃ pane, g.state.panes.get id = some pane ∧ g.state.sessionOf pane.windowId = none)
      fun claimed g' => ∃ pane, g.state.panes.get id = some pane ∧
        if claimed then
          (∀ owner, g.ptyOwners.get id = some owner → owner ≤ incarnation) ∧
          (pane.exitStatus = none ∧ g' = g.owned id incarnation ∨
            ∃ sid, Committed (g.owned id incarnation) g' (g.state.editPane id Pane.clearExit)
              [.paneRespawned id pane.windowId sid pane.command])
        else g' = g ∧ ∃ owner, g.ptyOwners.get id = some owner ∧ incarnation < owner := by
  refine .bind_ok (exec_current g) ?_
  refine .okOr_bind (fun hnone => Or.inl ⟨rfl, hnone⟩) fun pane hpane => ?_
  refine .bind_ok (exec_get g) ?_
  refine .ite (fun hnewer => ?_) fun hnewest => ?_
  · rw [Option.any_eq_true] at hnewer
    obtain ⟨owner, howner, hlt⟩ := hnewer
    exact ⟨pane, hpane, rfl, owner, howner, by simpa using hlt⟩
  have hbound : ∀ owner, g.ptyOwners.get id = some owner → owner ≤ incarnation := by
    intro owner howner
    by_contra hlt
    exact hnewest (by simpa [howner] using hlt)
  refine .bind_ok (exec_set _ _) ?_
  refine .ite (fun halive => ?_) fun hexited => ?_
  · exact ⟨pane, hpane, hbound, Or.inl ⟨by simpa using halive, rfl⟩⟩
  refine .okOr_bind (fun hnone => Or.inr ⟨rfl, pane, hpane, hnone⟩) fun sid hsid => ?_
  exact ⟨pane, hpane, hbound, Or.inr ⟨sid, .now _ _ _⟩⟩

/-- The graph after a status generation was recorded, the snapshot aside. -/
def SessionGraph.watermarked (g : SessionGraph R) (id : PaneId) (generation : Nat) :
    SessionGraph R :=
  { g with statusGenerations := g.statusGenerations.insert id generation }

/-- A status publication is taken for a pane that has not exited, when its
generation is above the pane's watermark. -/
def Accepts (g : SessionGraph R) (id : PaneId) (status : PaneStatusUpdate) : Prop :=
  ∃ pane, g.state.panes.get id = some pane ∧ pane.exitStatus = none ∧
    (g.statusGenerations.get id).getD 0 < status.generation

omit [Host] in
theorem setPaneProgramStatus_spec (status : PaneStatusUpdate) :
    Ensures (setPaneProgramStatus id status) g
      (fun _ g' => g' = g ∧ ∀ pane, g.state.panes.get id = some pane →
        g.state.sessionOf pane.windowId = none)
      fun _ g' => ∃ pane, g.state.panes.get id = some pane ∧
        (pane.exitStatus.isSome ∧ g' = g ∨
        pane.exitStatus = none ∧ status.generation ≤ (g.statusGenerations.get id).getD 0 ∧
          g' = g.watermarked id ((g.statusGenerations.get id).getD 0) ∨
        Accepts g id status ∧
          ((pane.programStatus = status.summary ∧ pane.programStatusSeen = status.seen ∧
              pane.programStatusEnabled = status.enabled) ∧
            g' = g.watermarked id status.generation ∨
            ∃ sid, Committed (g.watermarked id status.generation) g'
              (g.state.editPane id (Pane.recordStatus status))
              [.paneStatusChanged id pane.windowId sid pane.programStatus status.summary
                status.seen status.enabled])) := by
  refine .bind_ok (exec_current g) ?_
  refine .okOr_bind (fun hnone => ⟨rfl, by simp [hnone]⟩) fun pane hpane => ?_
  refine .ite (fun hsealed => ⟨pane, hpane, Or.inl ⟨hsealed, rfl⟩⟩) fun halive => ?_
  have hexit : pane.exitStatus = none := by simpa using halive
  refine .okOr_bind (fun hnone => ⟨rfl, by simpa [hpane] using hnone⟩) fun sid hsid => ?_
  refine .bind_ok (exec_get g) ?_
  refine .ite (fun hstale => ?_) fun hfresh => ?_
  · exact ⟨pane, hpane, Or.inr (Or.inl ⟨hexit, hstale, rfl⟩)⟩
  have haccepts : Accepts g id status := ⟨pane, hpane, hexit, not_le.mp hfresh⟩
  refine .bind_ok (exec_set _ _) ?_
  refine .ite (fun hsame => ?_) fun hdiffers => ?_
  · rw [Bool.and_eq_true, Bool.and_eq_true, decide_eq_true_eq, decide_eq_true_eq,
      decide_eq_true_eq] at hsame
    exact ⟨pane, hpane, Or.inr (Or.inr ⟨haccepts, Or.inl ⟨⟨hsame.1.1, hsame.1.2, hsame.2⟩, rfl⟩⟩)⟩
  · exact ⟨pane, hpane, Or.inr (Or.inr ⟨haccepts, Or.inr ⟨sid, .now _ _ _⟩⟩)⟩

variable [F32 R]

theorem splitPane_spec (target : PaneId) (direction : Direction) (ratio : R) (command : List Str) :
    Ensures (splitPaneWithCommand target direction ratio command) g (fun _ => Quiet g) fun _ g' =>
      ∃ s evs, Committed g g' s evs ∧ SplitsPane g.drawn g'.drawn g.state target s evs := by
  have hstage := stageSplitPane_spec g g.state target direction ratio command none
  rw [Ensures, exec_splitPane]
  rw [Ensures] at hstage
  split at hstage
  · rename_i r g' heq
    obtain ⟨⟨draws, seqs, rfl⟩, hsplits⟩ := hstage
    rw [heq]
    exact ⟨_, _, ⟨draws, seqs, rfl⟩, hsplits⟩
  · rename_i e g' heq
    rw [heq]
    exact hstage

omit [Host] [F32 R] in
theorem checkVersion_ne_lastPane {resource : Str} {id : Uuid}
    {actual : Version} {e : GraphError} (h : checkVersion resource id expected actual = .error e) :
    e ≠ .lastPane := by
  rw [checkVersion.eq_def] at h
  split at h
  · cases h
  · split_ifs at h
    cases h
    simp

/-- Refusing the last pane is the one failure that says something about the graph. -/
theorem destroyPane_spec (ev : Option Version) :
    Ensures (destroyPane id ev) g
      (fun e g' => g' = g ∧ (e = .lastPane → ∃ pane, g.state.panes.get id = some pane ∧
        (g.state.panes.values.filter fun p => p.windowId = pane.windowId).length ≤ 1))
      fun _ g' => ∃ pane s evs, g.state.panes.get id = some pane ∧ Allows ev pane.version ∧
        Committed g g' s evs ∧ RemovesPane g.state id s evs := by
  refine .bind_ok (exec_current g) ?_
  refine .okOr_bind (fun _ => ⟨rfl, by simp⟩) fun pane hpane => ?_
  refine .require_bind (fun _ h => ⟨rfl, fun hlast => absurd hlast (checkVersion_ne_lastPane h)⟩)
    fun _ hversion => ?_
  refine .guard (fun hlast => ⟨rfl, fun _ => ⟨pane, hpane, hlast⟩⟩) fun hmore => ?_
  refine .okOr_bind (fun _ => ⟨rfl, by simp⟩) fun window hwindow => ?_
  refine .bind_ok (exec_listValues _ _) ?_
  have heffect := RemovesPane.intro (Host.iter g.drawn (g.state.panes.remove id).values) _ hpane
    (not_le.mp hmore) hwindow rfl
  refine ⟨pane, _, _, hpane, allows_of_checkVersion hversion, ⟨0, 0, ?_⟩, heffect⟩
  rw [zoomEvents_none, ← publish_publish]
  rfl

/-- The layout, the zoom or the focus of one window moved. -/
def MovesLayout (g g' : SessionGraph R) (wid : WindowId) : Prop :=
  ∃ s evs, Committed g g' s evs ∧ Relayouts g.state wid s evs

omit [Host] [F32 R] in
theorem findPaneWindow_bind {g : SessionGraph R} {id : PaneId} {α : Type}
    {f : SessionGraphSnapshot R × WindowId → GraphM R GraphError α}
    {E : GraphError → SessionGraph R → Prop} {Q : α → SessionGraph R → Prop} (herror : ∀ e, E e g)
    (hok : ∀ pane, g.state.panes.get id = some pane → Ensures (f (g.state, pane.windowId)) g E Q) :
    Ensures (findPaneWindow id >>= f) g E Q := by
  refine .bind (P := fun r g' => g' = g ∧ ∃ pane, g.state.panes.get id = some pane ∧
    r = (g.state, pane.windowId)) ?_ ?_
  · refine .bind_ok (exec_current g) ?_
    refine .okOr_bind (fun _ => herror _) fun pane hpane => ?_
    exact ⟨rfl, pane, hpane, rfl⟩
  · rintro r g' ⟨rfl, pane, hpane, rfl⟩
    exact hok pane hpane

section

omit [Host]

theorem focusPane_spec :
    Ensures (focusPane id) g (fun _ => Quiet g) fun _ g' => ∃ wid, MovesLayout g g' wid := by
  refine findPaneWindow_bind (fun _ => .refl g) fun pane hpane => ?_
  refine .okOr_bind (fun _ => .refl g) fun window hwindow => ?_
  have hnotice : ∀ previous : Option PaneId,
      ∀ e ∈ [EventData.paneFocused id pane.windowId window.sessionId previous], e.IsNotice := by
    simp [EventData.IsNotice]
  cases hhidden : (zoomedPane window.layout).filter fun zoomed => zoomed ≠ id with
  | none =>
    have hshown : ∀ zoomed, zoomedPane window.layout = some zoomed → id = zoomed := by
      intro zoomed hzoomed
      by_contra hne
      rw [hzoomed, Option.filter_some, if_pos (by simpa using Ne.symm hne)] at hhidden
      cases hhidden
    have heffect := Relayouts.intro hwindow (.focus hpane rfl (Or.inl rfl) hshown)
      (Or.inr (Or.inr ⟨rfl, not_not.mpr rfl⟩))
      (hnotice (if window.activePane ≠ id then some window.activePane else none))
    refine ⟨pane.windowId, _, _, ⟨0, 0, ?_⟩, heffect⟩
    simp only [zoomEvents, if_true, List.nil_append, take_zero]
    rfl
  | some zoomed =>
    have hzoomed : zoomedPane window.layout = some zoomed :=
      (Option.filter_eq_some_iff.mp hhidden).1
    have hnow : zoomedPane (window.layout.toggleZoom zoomed) = none := by
      rw [toggleZoom_zoomed hzoomed, zoomedPane, unzoom_zoom]
      rfl
    have heffect := Relayouts.intro hwindow
      (.focus hpane rfl (Or.inr ⟨zoomed, hzoomed, rfl⟩) (by simp [hnow]))
      (Or.inr (Or.inl rfl))
      (hnotice (if window.activePane ≠ id then some window.activePane else none))
    rw [hnow, zoomEvents_none, hzoomed] at heffect
    refine ⟨pane.windowId, _, _, ⟨0, 0, ?_⟩, heffect⟩
    rw [take_zero, ← publish_publish]
    rfl

theorem focusPaneDirection_spec (wid : WindowId) (direction : NavDirection) (viewport : Rect) :
    Ensures (focusPaneDirection wid direction viewport) g (fun _ => Quiet g) fun _ g' =>
      g' = g ∨ ∃ wid, MovesLayout g g' wid := by
  refine .bind_ok (exec_current g) ?_
  refine .okOr_bind (fun _ => .refl g) fun window hwindow => ?_
  cases window.layout.tree.directionalFocus window.activePane direction viewport with
  | none => exact Or.inl rfl
  | some target => exact .bind (focusPane_spec g target) fun _ _ h => Or.inr h

end

/-- The layout of the window of pane `id` moved, and all of the window's panes were
bumped; a request that named a version of `id` named the current one. -/
def MovesLayoutOf (g g' : SessionGraph R) (id : PaneId) (ev : Option Version) : Prop :=
  ∃ pane s evs, g.state.panes.get id = some pane ∧ Allows ev pane.version ∧
    Committed g g' s evs ∧ Relayouts g.state pane.windowId s evs ∧
    s.panes = bumpPanes (windowPaneIds g.state.panes pane.windowId) g.state.panes

omit [Host] in
theorem MovesLayoutOf.moves {g g' : SessionGraph R} {id : PaneId} {ev : Option Version}
    (h : MovesLayoutOf g g' id ev) : ∃ wid, MovesLayout g g' wid := by
  obtain ⟨pane, s, evs, -, -, hcommitted, hrelayouts, -⟩ := h
  exact ⟨pane.windowId, s, evs, hcommitted, hrelayouts⟩

section

omit [Host]

theorem resizePane_spec (direction : Direction) (delta : R) (ev : Option Version) :
    Ensures (resizePane id direction delta ev) g (fun _ => Quiet g) fun _ g' =>
      g' = g ∨ MovesLayoutOf g g' id ev := by
  refine findPaneWindow_bind (fun _ => .refl g) fun pane hpane => ?_
  refine .okOr_bind (fun _ => .refl g) fun _ hagain => ?_
  cases hpane.symm.trans hagain
  refine .require_bind (fun _ _ => .refl g) fun _ hversion => ?_
  refine .okOr_bind (fun _ => .refl g) fun window hwindow => ?_
  cases htree : window.layout.full.resizePane id direction delta with
  | none =>
    rw [full] at htree
    simp only [htree]
    exact Or.inl rfl
  | some tree =>
    have heffect := Relayouts.intro hwindow (.resize htree) (Or.inl rfl)
      (List.forall_mem_nil _)
    have hunfolded := htree
    rw [full] at hunfolded
    simp only [hunfolded, unzoom_zoom]
    refine Or.inr ⟨pane, _, _, hpane, allows_of_checkVersion hversion, ⟨0, 0, ?_⟩, heffect, rfl⟩
    simp only [zoomedPane, Option.map_none, List.append_nil]
    rw [zoomEvents_none]
    rfl

theorem swapPanes_spec (a b : PaneId) (ev : Option Version) :
    Ensures (swapPanes a b ev) g (fun _ => Quiet g) fun _ g' => MovesLayoutOf g g' a ev := by
  refine .guard (fun _ => .refl g) fun hne => ?_
  refine .bind_ok (exec_current g) ?_
  refine .okOr_bind (fun _ => .refl g) fun paneA hpaneA => ?_
  refine .okOr_bind (fun _ => .refl g) fun paneB hpaneB => ?_
  refine .guard (fun _ => .refl g) fun hsame => ?_
  refine .require_bind (fun _ _ => .refl g) fun _ hversion => ?_
  refine .okOr_bind (fun _ => .refl g) fun window hwindow => ?_
  cases htree : window.layout.full.swapPanes a b with
  | none =>
    rw [full] at htree
    simp only [htree]
    exact .refl g
  | some tree =>
    have heffect := Relayouts.intro hwindow (.swap htree) (Or.inl rfl) (List.forall_mem_nil _)
    have hunfolded := htree
    rw [full] at hunfolded
    simp only [hunfolded, unzoom_zoom]
    refine ⟨paneA, _, _, hpaneA, allows_of_checkVersion hversion, ⟨0, 0, ?_⟩, heffect, rfl⟩
    simp only [zoomedPane, Option.map_none, List.append_nil]
    rw [zoomEvents_none]
    rfl

theorem zoomPane_spec (ev : Option Version) :
    Ensures (zoomPane id ev) g (fun _ => Quiet g) fun _ g' =>
      g' = g ∨ MovesLayoutOf g g' id ev := by
  refine findPaneWindow_bind (fun _ => .refl g) fun pane hpane => ?_
  refine .okOr_bind (fun _ => .refl g) fun _ hagain => ?_
  cases hpane.symm.trans hagain
  refine .require_bind (fun _ _ => .refl g) fun _ hversion => ?_
  refine .okOr_bind (fun _ => .refl g) fun window hwindow => ?_
  refine .ite (fun _ => Or.inl rfl) fun hchanged => ?_
  have hactive : ∀ focus : Option PaneId,
      (focus = if (zoomedPane (window.layout.toggleZoom id)).isSome && window.activePane ≠ id then
        some window.activePane else none) →
      (if focus.isSome then id else window.activePane) = window.activePane ∨
        ((if focus.isSome then id else window.activePane) = id ∧
          zoomedPane (window.layout.toggleZoom id) = some id) := by
    intro focus hfocus
    cases hnow : zoomedPane (window.layout.toggleZoom id) with
    | none => left; simp [hfocus, hnow]
    | some zoomed =>
      cases zoomedPane_toggleZoom hnow
      by_cases hsame : window.activePane = id
      · left; simp [hfocus, hsame]
      · right; simp [hfocus, hsame, hnow]
  have hshown : ∀ focus : Option PaneId,
      (focus = if (zoomedPane (window.layout.toggleZoom id)).isSome && window.activePane ≠ id then
        some window.activePane else none) →
      ∀ zoomed, zoomedPane (window.layout.toggleZoom id) = some zoomed →
        (if focus.isSome then id else window.activePane) = zoomed := by
    intro focus hfocus zoomed hnow
    have hid := zoomedPane_toggleZoom hnow
    subst hid
    by_cases hsame : window.activePane = zoomed
    · simp [hsame]
    · simp [hfocus, hsame, hnow]
  have hnotice : ∀ focus : Option PaneId, ∀ e ∈ (focus.map fun previous =>
      EventData.paneFocused id pane.windowId window.sessionId (some previous)).toList,
      e.IsNotice := by
    intro focus e he
    cases focus with
    | none => cases he
    | some previous =>
      cases List.mem_singleton.mp he
      trivial
  obtain ⟨focus, hfocus⟩ : ∃ focus, focus =
      if (zoomedPane (window.layout.toggleZoom id)).isSome && window.activePane ≠ id then
        some window.activePane else none := ⟨_, rfl⟩
  have heffect := Relayouts.intro hwindow (.zoom (hactive focus hfocus) (hshown focus hfocus))
    (Or.inl rfl) (hnotice focus)
  subst hfocus
  refine Or.inr ⟨pane, _, _, hpane, allows_of_checkVersion hversion, ⟨0, 0, ?_⟩, heffect, rfl⟩
  rw [zoomEvents, if_neg hchanged, take_zero, ← publish_publish, ← publish_publish]

theorem zoomPaneIfFocused_spec (id focused : PaneId) :
    Ensures (zoomPaneIfFocused id focused) g (fun _ => Quiet g) fun _ g' =>
      g' = g ∨ MovesLayoutOf g g' id none := by
  refine findPaneWindow_bind (fun _ => .refl g) fun pane hpane => ?_
  refine .okOr_bind (fun _ => .refl g) fun window hwindow => ?_
  refine .ite (fun _ => Or.inl rfl) fun _ => ?_
  exact zoomPane_spec g id none

end

/-- Which of the three removals happens depends on what the pane's window and the
window's session have left. -/
theorem destroyPaneAndEmptyParents_spec :
    Ensures (destroyPaneAndEmptyParents id) g (fun _ => Quiet g) fun _ g' =>
      ∃ s evs, Committed g g' s evs ∧
        (RemovesPane g.state id s evs ∨
          ∃ pane, g.state.panes.get id = some pane ∧
            (g.state.panes.values.filter fun p => p.windowId = pane.windowId).length ≤ 1 ∧
            (RemovesWindow g.state pane.windowId s evs ∨
              ∃ window, g.state.windows.get pane.windowId = some window ∧
                RemovesSession g.state window.sessionId s evs)) := by
  have hlast : Ensures
      (tryCatch (do destroyPane id none; return true) fun e =>
        if e = .lastPane then return false else throw e : GraphM R GraphError Bool) g
      (fun _ => Quiet g)
      fun destroyed g' =>
        if destroyed then ∃ s evs, Committed g g' s evs ∧ RemovesPane g.state id s evs
        else g' = g ∧ ∃ pane, g.state.panes.get id = some pane ∧
          (g.state.panes.values.filter fun p => p.windowId = pane.windowId).length ≤ 1 := by
    refine Ensures.tryCatch (.bind (destroyPane_spec g id none) ?_) ?_
    · rintro _ g' ⟨pane, s, evs, -, -, hcommitted, hremoves⟩
      exact ⟨s, evs, hcommitted, hremoves⟩
    · rintro e g' ⟨rfl, hfew⟩
      refine .ite (fun he => ⟨rfl, hfew he⟩) fun _ => Quiet.refl _
  refine .bind hlast ?_
  intro destroyed g' houtcome
  cases destroyed with
  | true =>
    obtain ⟨s, evs, hcommitted, hremoves⟩ := houtcome
    exact ⟨s, evs, hcommitted, Or.inl hremoves⟩
  | false =>
    obtain ⟨rfl, pane, hpane, hfew⟩ := houtcome
    refine findPaneWindow_bind (fun _ => .refl _) fun pane' hpane' => ?_
    cases hpane.symm.trans hpane'
    refine .okOr_bind (fun _ => .refl _) fun sid hsid => ?_
    obtain ⟨window, hwindow, rfl⟩ := Option.map_eq_some_iff.mp hsid
    refine Ensures.tryCatch
      ((destroyWindow_spec _ pane.windowId none).mono (fun _ _ h => h) ?_) ?_
    · rintro _ g'' ⟨_, s, evs, -, -, hcommitted, hremoves⟩
      exact ⟨s, evs, hcommitted, Or.inr ⟨pane, hpane, hfew, Or.inl hremoves⟩⟩
    · rintro e g'' rfl
      refine .ite (fun _ => ?_) fun _ => .refl _
      refine (destroySession_spec _ window.sessionId none).mono (fun _ _ h => h) ?_
      rintro _ g' ⟨_, s, evs, -, -, hcommitted, hremoves⟩
      exact ⟨s, evs, hcommitted, Or.inr ⟨pane, hpane, hfew, Or.inr ⟨window, hwindow, hremoves⟩⟩⟩

end Shux
