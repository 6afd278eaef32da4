/-
# Versions

Every session, window and pane carries a version. No operation lowers one, and an
operation that changes an entity in any way raises its version, whether the entity
was the one the operation was about or not.

An entity that disappears and one that appears are different entities: the ids of
the new ones were not drawn before. So a later snapshot holds what was there before,
grown older, and what was drawn since, and that relation composes.
-/

import Shux.Core.Structure

namespace Shux

variable {evs : List EventData} {V : Type}
variable {version : V → Version}

/-- The second value is the first, or has a greater version. -/
def Newer {V : Type} (version : V → Version) (v v' : V) : Prop := v' = v ∨ version v < version v'

theorem Newer.refl (version : V → Version) (v : V) : Newer version v v := Or.inl rfl

theorem Newer.trans (u v w : V) (h : Newer version u v)
    (h' : Newer version v w) : Newer version u w := by
  rcases h with rfl | hlt
  · exact h'
  · rcases h' with rfl | hlt'
    · exact Or.inr hlt
    · exact Or.inr (hlt.trans hlt')

theorem Newer.le {v v' : V} (h : Newer version v v') : version v ≤ version v' := by
  rcases h with rfl | hlt
  · exact le_rfl
  · exact hlt.le

/-- What becomes of a pane that survives effects of some kinds. -/
structure Later (kinds : Set Kind) (p p' : Pane) : Prop where
  newer : Newer Pane.version p p'
  windowId : p'.windowId = p.windowId
  program : .reportPane ∉ kinds → p'.program = p.program

namespace Later

variable {kinds : Set Kind}

theorem refl (p : Pane) : Later kinds p p := ⟨Or.inl rfl, rfl, fun _ => rfl⟩

theorem trans (p q r : Pane) (h : Later kinds p q) (h' : Later kinds q r) : Later kinds p r where
  newer := .trans _ _ _ h.newer h'.newer
  windowId := h'.windowId.trans h.windowId
  program hkind := (h'.program hkind).trans (h.program hkind)

theorem bump (p : Pane) : Later kinds p p.bump :=
  ⟨Or.inr (Nat.lt_succ_self p.version), rfl, fun _ => rfl⟩

end Later

variable {R : Type} [Host]

/-- A pane that was drawn between two counts and, unless something was reported of it,
whose program has not been heard of. -/
def NewPane (kinds : Set Kind) (lo hi : Nat) (pid : PaneId) (p : Pane) : Prop :=
  Fresh lo hi pid.uuid ∧ (.reportPane ∉ kinds → p.program = (none, none, false, none, false, false))

/-- A later snapshot: what it holds was there before, or was drawn since. -/
structure Aged (kinds : Set Kind) (lo hi : Nat) (s s' : SessionGraphSnapshot R) : Prop where
  sessions : s.sessions.Grows (Newer Session.version)
    (fun sid _ => Fresh lo hi sid.uuid) s'.sessions
  windows : s.windows.Grows (Newer Window.version) (fun wid _ => Fresh lo hi wid.uuid) s'.windows
  panes : s.panes.Grows (Later kinds) (NewPane kinds lo hi) s'.panes

theorem Fresh.not_old {lo hi : Nat} {u : Uuid} (h : Fresh lo hi u) : ¬ Fresh 0 lo u :=
  fun hold => hold.ne h rfl

theorem Fresh.widen {lo mid hi : Nat} {u : Uuid} (h : Fresh mid hi u) (hle : lo ≤ mid) :
    Fresh lo hi u := by
  obtain ⟨n, hlo, hhi, heq⟩ := h
  exact ⟨n, hle.trans hlo, hhi, heq⟩

namespace Aged

variable {kinds : Set Kind} {lo mid hi : Nat} {s s' s'' : SessionGraphSnapshot R}

theorem refl (lo hi : Nat) (s : SessionGraphSnapshot R) : Aged kinds lo hi s s :=
  ⟨.refl (.refl _) _, .refl (.refl _) _, .refl .refl _⟩

theorem trans (h : Aged kinds lo mid s s') (h' : Aged kinds mid hi s' s'') (hlo : lo ≤ mid)
    (hhi : mid ≤ hi) : Aged kinds lo hi s s'' where
  sessions := h.sessions.trans .trans h'.sessions (fun _ _ _ hnew _ => hnew.mono hhi)
    fun _ _ hnew => hnew.widen hlo
  windows := h.windows.trans .trans h'.windows (fun _ _ _ hnew _ => hnew.mono hhi)
    fun _ _ hnew => hnew.widen hlo
  panes := by
    refine h.panes.trans .trans h'.panes ?_ ?_
    · rintro pid p p' ⟨hfresh, hprogram⟩ hlater
      exact ⟨hfresh.mono hhi, fun hkind => (hlater.program hkind).trans (hprogram hkind)⟩
    · rintro pid p ⟨hfresh, hprogram⟩
      exact ⟨hfresh.widen hlo, hprogram⟩

/-- A session drawn before goes back to itself. -/
theorem old_session (h : Aged kinds lo hi s s') {sid : SessionId} {x' : Session}
    (hold : Fresh 0 lo sid.uuid) (hx' : s'.sessions.get sid = some x') :
    ∃ x, s.sessions.get sid = some x ∧ Newer Session.version x x' :=
  (h.sessions sid x' hx').resolve_right fun hnew => hnew.not_old hold

theorem old_window (h : Aged kinds lo hi s s') {wid : WindowId} {w' : Window R}
    (hold : Fresh 0 lo wid.uuid) (hw' : s'.windows.get wid = some w') :
    ∃ w, s.windows.get wid = some w ∧ Newer Window.version w w' :=
  (h.windows wid w' hw').resolve_right fun hnew => hnew.not_old hold

theorem old_pane (h : Aged kinds lo hi s s') {pid : PaneId} {p' : Pane}
    (hold : Fresh 0 lo pid.uuid) (hp' : s'.panes.get pid = some p') :
    ∃ p, s.panes.get pid = some p ∧ Later kinds p p' :=
  (h.panes pid p' hp').resolve_right fun hnew => hnew.1.not_old hold

end Aged

theorem SessionEdit.newer {s : SessionGraphSnapshot R} {sid : SessionId} {session : Session}
    {edit : Session → Session} (h : SessionEdit s sid session edit evs)
    (x : Session) : Newer Session.version x (edit x) := by
  cases h with
  | rename hname hfree | decorate | focus hmem => exact Or.inr (Nat.lt_succ_self x.version)
  | reorder hindex =>
    dsimp only
    split
    · exact Or.inr (Nat.lt_succ_self x.version)
    · exact Or.inl rfl

variable [F32 R]

/-- Every effect ages the snapshot. -/
theorem Effect.aged {kinds : Set Kind} {lo hi : Nat} {s s' : SessionGraphSnapshot R}
    (h : Effect kinds lo hi s s' evs) (hlinked : Linked s) :
    Aged kinds lo hi s s' := by
  have hsession : s.sessions.Grows (Newer Session.version) (fun sid _ => Fresh lo hi sid.uuid)
      s.sessions := .refl (.refl _) _
  have hpane : s.panes.Grows (Later kinds) (NewPane kinds lo hi) s.panes := .refl .refl _
  have hlayout : ∀ wid (layout : WindowLayout R) (active : PaneId),
      s.windows.Grows (Newer Window.version) (fun wid _ => Fresh lo hi wid.uuid)
        (s.windows.modify wid fun w =>
          { w with layout := layout, activePane := active, version := w.version + 1 }) :=
    fun wid layout active => .modify (.refl _) _ _ fun w => Or.inr (Nat.lt_succ_self w.version)
  cases h with
  | addSession hkind h =>
    cases h with
    | intro at₀ seq hsid hwid hpid =>
      exact ⟨.insert (.refl _) _ hsid, .insert (.refl _) _ hwid,
        .insert .refl _ ⟨hpid, fun _ => rfl⟩⟩
  | addWindow hkind h =>
    cases h with
    | intro index hwid hpid =>
      refine ⟨.modify (.refl _) _ _ fun x => ?_, .insert (.refl _) _ hwid,
        .insert .refl _ ⟨hpid, fun _ => rfl⟩⟩
      exact Or.inr (Nat.lt_succ_self x.version)
  | addPane hkind h =>
    cases h with
    | intro hpid => exact ⟨hsession, .refl (.refl _) _, .insert .refl _ ⟨hpid, fun _ => rfl⟩⟩
  | splitPane hkind h =>
    cases h with
    | intro hpid => exact ⟨hsession, hlayout _ _ _, .insert .refl _ ⟨hpid, fun _ => rfl⟩⟩
  | removeSession hkind h =>
    cases h with
    | intro => exact ⟨.remove (.refl _) _ _, .removeAll (.refl _) _ _, .removeAll .refl _ _⟩
  | removeWindow hkind h =>
    cases h with
    | intro =>
      refine ⟨.modify (.refl _) _ _ fun x => ?_, .remove (.refl _) _ _, .removeAll .refl _ _⟩
      exact Or.inr (Nat.lt_succ_self x.version)
  | removePane hkind h =>
    cases h with
    | intro => exact ⟨hsession, hlayout _ _ _, .remove .refl _ _⟩
  | editSession hkind hget h => exact ⟨.modify (.refl _) _ _ h.newer, .refl (.refl _) _, hpane⟩
  | renameWindow hkind h =>
    cases h with
    | intro =>
      refine ⟨hsession, .modify (.refl _) _ _ fun w => ?_, hpane⟩
      exact Or.inr (Nat.lt_succ_self w.version)
  | editPane hkind hget hkeeps hevs =>
    refine ⟨hsession, .refl (.refl _) _, .modify .refl _ _ fun p => ⟨Or.inr ?_, ?_, ?_⟩⟩
    · rw [(hkeeps p).version]
      exact Nat.lt_succ_self p.version
    · exact (hkeeps p).windowId
    · intro hreport
      rcases hkind with ⟨-, hbody⟩ | hkind
      · exact (hbody p).program
      · exact absurd hkind hreport
  | relayout hkind h =>
    cases h with
    | @intro window layout active panes focusEvents hget hmove hpanes hfocus =>
      refine ⟨hsession, hlayout _ _ _, fun pid p' hp' => Or.inl ?_⟩
      replace hp' : panes.get pid = some p' := hp'
      rcases hlinked.get_of_bumped hpanes with hbumped | ⟨rfl, -⟩
      · rw [hbumped] at hp'
        obtain ⟨p, hp, rfl⟩ := Option.map_eq_some_iff.mp hp'
        refine ⟨p, hp, ?_⟩
        split_ifs
        · exact .bump p
        · exact .refl p
      · exact ⟨p', hp', .refl p'⟩

theorem Trace.aged {kinds : Set Kind} {lo hi n : Nat} {s s' : SessionGraphSnapshot R}
    (h : Trace kinds lo hi n s s' evs) (hsound : Sound lo s) :
    Aged kinds lo hi s s' := by
  induction h with
  | refl s hle => exact .refl _ _ s
  | snoc htrace heffect hle ih =>
    have haged := heffect.aged (htrace.sound hsound).linked
    exact (ih hsound).trans haged htrace.le hle

/-- What survives has no smaller version, and a greater one if it is not the same. -/
def KeepsVersions {K V : Type} [DecidableEq K] (version : V → Version) (m m' : FinMap K V) : Prop :=
  ∀ k v v', m.get k = some v → m'.get k = some v' →
    version v ≤ version v' ∧ (v' ≠ v → version v < version v')

omit [Host] [F32 R] in
theorem keepsVersions_of_newer {K : Type} [DecidableEq K]
    {m m' : FinMap K V} (h : ∀ k v v', m.get k = some v → m'.get k = some v' →
      ∃ u, m.get k = some u ∧ Newer version u v') : KeepsVersions version m m' := by
  intro k v v' hv hv'
  obtain ⟨u, hu, hnewer⟩ := h k v v' hv hv'
  rw [hv] at hu
  cases hu
  refine ⟨hnewer.le, fun hne => ?_⟩
  rcases hnewer with rfl | hlt
  · exact absurd rfl hne
  · exact hlt

/-- The version discipline: from every state that commands lead to, no command lowers
a version, none changes an entity under its version, and the snapshot's own version
grows with the commits. -/
theorem step_versions (cmds : List (GraphCommand R)) (cmd : GraphCommand R) :
    let g := SessionGraph.newWithEventBus.run cmds
    let g' := (g.step cmd).2
    KeepsVersions Session.version g.state.sessions g'.state.sessions ∧
    KeepsVersions Window.version g.state.windows g'.state.windows ∧
    KeepsVersions Pane.version g.state.panes g'.state.panes ∧
    g.state.version ≤ g'.state.version ∧
    (g.state.version < g'.state.version ↔ g.commits < g'.commits) := by
  intro g g'
  have hsound : Sound g.drawn g.state := Reachable.sound ⟨cmds, rfl⟩
  obtain ⟨n, evs, hadvances⟩ := step_moves g cmd
  have haged := hadvances.trace.aged hsound
  have hversion := hadvances.trace.version
  refine ⟨keepsVersions_of_newer fun sid x x' hx hx' => ?_,
    keepsVersions_of_newer fun wid w w' hw hw' => ?_,
    keepsVersions_of_newer fun pid p p' hp hp' => ?_, ?_, ?_⟩
  · exact haged.old_session (hsound.drawn.session sid x hx) hx'
  · exact haged.old_window (hsound.drawn.window wid w hw) hw'
  · obtain ⟨q, hq, hlater⟩ := haged.old_pane (hsound.drawn.pane pid p hp) hp'
    exact ⟨q, hq, hlater.newer⟩
  · rw [hversion]
    exact Nat.le_add_right _ n
  · rw [hadvances.commits_lt, hversion]
    exact Nat.lt_add_right_iff_pos

/-- What is there at two moments was there in between, and never changed under one version. -/
def Persists {K V : Type} [DecidableEq K] (version : V → Version) (m m' m'' : FinMap K V) : Prop :=
  ∀ k v v'', m.get k = some v → m''.get k = some v'' →
    ∃ v', m'.get k = some v' ∧ Newer version v v' ∧ Newer version v' v''

/-- An id names one entity for good: none comes back, and none has one version twice. -/
theorem run_persists (cmds later last : List (GraphCommand R)) :
    let g := SessionGraph.newWithEventBus.run cmds
    let g' := g.run later
    let g'' := g'.run last
    Persists Session.version g.state.sessions g'.state.sessions g''.state.sessions ∧
    Persists Window.version g.state.windows g'.state.windows g''.state.windows ∧
    Persists Pane.version g.state.panes g'.state.panes g''.state.panes := by
  intro g g' g''
  have hsound : Sound g.drawn g.state := Reachable.sound ⟨cmds, rfl⟩
  obtain ⟨n, evs, hadvances⟩ := run_moves g later fun cmd _ => Set.subset_univ cmd.kinds
  obtain ⟨n', evs', hadvances'⟩ := run_moves g' last fun cmd _ => Set.subset_univ cmd.kinds
  have haged := hadvances.trace.aged hsound
  have haged' := hadvances'.trace.aged (hadvances.trace.sound hsound)
  have hle := hadvances.trace.le
  refine ⟨fun sid x x'' hx hx'' => ?_, fun wid w w'' hw hw'' => ?_, fun pid p p'' hp hp'' => ?_⟩
  · have hdrawn := hsound.drawn.session sid x hx
    obtain ⟨x', hx', hlast⟩ := haged'.old_session (hdrawn.mono hle) hx''
    obtain ⟨_, hfirst, hnewer⟩ := haged.old_session hdrawn hx'
    cases hx.symm.trans hfirst
    exact ⟨x', hx', hnewer, hlast⟩
  · have hdrawn := hsound.drawn.window wid w hw
    obtain ⟨w', hw', hlast⟩ := haged'.old_window (hdrawn.mono hle) hw''
    obtain ⟨_, hfirst, hnewer⟩ := haged.old_window hdrawn hw'
    cases hw.symm.trans hfirst
    exact ⟨w', hw', hnewer, hlast⟩
  · have hdrawn := hsound.drawn.pane pid p hp
    obtain ⟨p', hp', hlast⟩ := haged'.old_pane (hdrawn.mono hle) hp''
    obtain ⟨_, hfirst, hlater⟩ := haged.old_pane hdrawn hp'
    cases hp.symm.trans hfirst
    exact ⟨p', hp', hlater.newer, hlast.newer⟩

end Shux
