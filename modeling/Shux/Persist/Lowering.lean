/-
# What a template makes

A template names windows, the panes of each, and directories on three levels. Its batch is
refused as a whole, or it makes one session with a window for each of the template's, whose
panes are split off one another. A split without a directory of its own is made in that of the
pane it is split off.
-/

import Shux.Persist.RoundTrip

namespace Shux.Persist

open Proc SessionGraph List

variable {R : Type}

/-- The directory of a window: its own, else the session's. -/
def WindowTpl.dir (env : Env) (sessionCwd : PathBuf) (window : WindowTpl R) : PathBuf :=
  (window.cwd.map (expandString env)).getD sessionCwd

section Asked

variable [F32 R] {env : Env} {sessionCwd : PathBuf}

/-- What the panes after the first run, and where: in their own directory if they have one. One
without, behind a pane in the directory of the window, is in that directory too. -/
inductive SplitsOff (env : Env) (given : PathBuf) :
    PathBuf → List (PaneTpl R) → List (Direction × R × PaneSpec) → Prop
  | nil (prior : PathBuf) : SplitsOff env given prior [] []
  | cons {prior : PathBuf} {pane : PaneTpl R} {spec : PaneSpec} {rest : List (PaneTpl R)}
      {more : List (Direction × R × PaneSpec)} (hcommand : spec.command = pane.command)
      (hown : ∀ own, pane.cwd = some own → spec.cwd = expandString env own)
      (hgiven : pane.cwd = none → prior = given → spec.cwd = given)
      (hrest : SplitsOff env given spec.cwd rest more) :
      SplitsOff env given prior (pane :: rest)
        ((pane.direction.getD .vertical, clampRatio pane.ratio, spec) :: more)

/-- The window is the one that the template asks for: its title sanitised, if it has one, and its
panes in order, each after the first split off the one before it. -/
def Realises (env : Env) (sessionCwd : PathBuf) (s : SessionGraphSnapshot R) (sid : SessionId)
    (window : WindowTpl R) (wid : WindowId) : Prop :=
  ∃ w pane rest first more, s.windows.get wid = some w ∧ w.sessionId = sid ∧
    (window.title ≠ [] → w.title = sanitizeTitle window.title) ∧
    window.panes = pane :: rest ∧ first.command = pane.command ∧
    first.cwd = (pane.cwd.map (expandString env)).getD (window.dir env sessionCwd) ∧
    SplitsOff env (window.dir env sessionCwd) first.cwd rest more ∧
    w.layout.zoom = none ∧ Chain s wid first more w.layout.tree

theorem splitsOff_splitSpecs (given prior : PathBuf) (panes : List (PaneTpl R)) :
    SplitsOff env given prior panes (splitSpecs env prior panes) := by
  induction panes generalizing prior with
  | nil => exact .nil prior
  | cons pane rest ih =>
    refine .cons rfl (fun own hown => ?_) (fun hnone hprior => ?_) (ih _)
    · rw [hown]
      rfl
    · rw [hnone]
      exact hprior

variable {s : SessionGraphSnapshot R} {sid : SessionId} {window : WindowTpl R}
variable {first : PaneTpl R} {more : List (PaneTpl R)}

theorem Made.realises {wid : WindowId} {title : Str} (hpanes : window.panes = first :: more)
    (htitle : window.title ≠ [] → title = sanitizeTitle window.title)
    (h : Made s sid ⟨title, firstSpec env sessionCwd window first,
      splitSpecs env (firstSpec env sessionCwd window first).cwd more⟩ wid) :
    Realises env sessionCwd s sid window wid := by
  obtain ⟨w, t, hw, hsid, hshown, hlayout, hchain, -⟩ := h
  refine ⟨w, first, more, firstSpec env sessionCwd window first, _, hw, hsid, fun hne => ?_, hpanes,
    rfl, rfl, splitsOff_splitSpecs _ _ more, by rw [hlayout], ?_⟩
  · rw [hshown]
    exact htitle hne
  · rw [hlayout]
    exact hchain

theorem realises_of_made {windows : List (WindowTpl R)} {wids : List WindowId}
    (hne : ∀ w ∈ windows, w.panes ≠ [])
    (h : List.Forall₂ (Made s sid) (windowSpecs env sessionCwd windows) wids) :
    List.Forall₂ (Realises env sessionCwd s sid) windows wids := by
  induction windows generalizing wids with
  | nil =>
    cases h
    exact .nil
  | cons window rest ih =>
    obtain ⟨first, more, hpanes⟩ := exists_cons_of_ne_nil (hne window mem_cons_self)
    rw [windowSpecs, hpanes] at h
    cases h with
    | cons hmade hrest =>
      exact .cons (hmade.realises hpanes fun _ => rfl)
        (ih (fun w hmem => hne w (mem_cons_of_mem _ hmem)) hrest)

end Asked

/-- Only a template with a window, and with panes in each, is lowered. -/
theorem exists_of_lower {tpl : Template R} {ops : List (Op R)} (h : lower env tpl = .ok ops) :
    ∃ window windows first more, tpl.windows = window :: windows ∧
      window.panes = first :: more ∧ (∀ w ∈ windows, w.panes ≠ []) ∧
      ops = templateOps env tpl.session.name (expandCwd env tpl.session.cwd) window first more
        windows := by
  unfold lower at h
  split at h
  · cases h
  · rename_i window windows hwindows
    split at h
    · cases h
    · rename_i hnone
      rw [hwindows, findEmpty_eq_none_iff] at hnone
      dsimp only at h
      split at h
      · cases h
      · rename_i first more hpanes
        cases h
        exact ⟨window, windows, first, more, hwindows, hpanes,
          fun w hmem => hnone w (mem_cons_of_mem _ hmem), rfl⟩

/-- The batch of a template, applied to any graph that commands make, is refused and leaves the
graph as it was, or it makes one session with the windows that the template asks for. -/
theorem applyBatch_lower [Host] [F32 R] [LawfulF32 R] (env : Env) (tpl : Template R)
    (cmds : List (GraphCommand R))
    {ops : List (Op R)} (h : lower env tpl = .ok ops) :
    let g : SessionGraph R := SessionGraph.newWithEventBus.run cmds
    Ensures (SessionGraph.applyBatch ops) g (fun _ => Quiet g) fun _ g' => ∃ sid x,
      g.state.sessions.get sid = none ∧
        (∀ k, k ≠ sid → g'.state.sessions.get k = g.state.sessions.get k) ∧
        g'.state.sessions.get sid = some x ∧
        (∀ name, tpl.session.name = some name → x.name = name) ∧
        List.Forall₂ (Realises env (expandCwd env tpl.session.cwd) g'.state sid) tpl.windows
          x.windows := by
  intro g
  have hsound : Sound g.drawn g.state := Reachable.sound ⟨cmds, rfl⟩
  obtain ⟨window, windows, first, more, hwindows, hpanes, hne, rfl⟩ := exists_of_lower h
  have hspecs : ∃ spec rest, windowSpecs env (expandCwd env tpl.session.cwd) (window :: windows) =
      spec :: rest := by
    rw [windowSpecs, hpanes]
    exact ⟨_, _, rfl⟩
  obtain ⟨spec, rest, hspecs⟩ := hspecs
  -- Nothing is known to fit, so that every refusal is allowed for.
  have hno : ∀ {p : Prop}, ¬ True → p := fun h => (h trivial).elim
  refine ((applyBatch_spec g _).and (applyBatch_session (E := True) g env hsound _ hpanes hspecs
    hno hno hno hno hno)).mono (fun _ _ h => h.1) ?_
  rintro _ g' ⟨-, sid, x, t, hfresh, hothers, hx, hname, htitle, hmade⟩
  refine ⟨sid, x, hfresh, hothers, hx, fun name hsome => by rw [hname, hsome]; rfl, ?_⟩
  rw [windowSpecs, hpanes] at hspecs
  obtain ⟨rfl, rfl⟩ := List.cons.inj hspecs
  rw [hwindows]
  generalize x.windows = wids at hmade
  cases hmade with
  | cons hfirst hrest => exact .cons (hfirst.realises hpanes htitle) (realises_of_made hne hrest)

namespace Sample

open Shux.Sample

/-- Two windows, with directories on every level. -/
def mixed : Template ℚ where
  session := ⟨some "work".toList, some "~/src".toList⟩
  windows := [⟨"edit".toList, none, [⟨[], none, none, 1 / 2⟩, ⟨[], none, some .horizontal, 1 / 3⟩]⟩,
    ⟨"logs".toList, some "/var".toList, [⟨[], some "/tmp".toList, none, 1 / 2⟩,
      ⟨["top".toList], some "~".toList, none, 1 / 4⟩]⟩]

/-- The graph that the batch of a template makes of an empty one. -/
def made (tpl : Template ℚ) : SessionGraph ℚ :=
  (exec (SessionGraph.applyBatch ((lower env tpl).toOption.getD [])) .newWithEventBus).2

theorem applyBatch_lower_mixed : ∃ ops, lower env mixed = .ok ops ∧
    (made mixed).state.sessions.size = 1 ∧
    let g : SessionGraph ℚ := SessionGraph.newWithEventBus.run []
    Ensures (SessionGraph.applyBatch ops) g (fun _ => Quiet g) fun _ g' => ∃ sid x,
      g.state.sessions.get sid = none ∧
        (∀ k, k ≠ sid → g'.state.sessions.get k = g.state.sessions.get k) ∧
        g'.state.sessions.get sid = some x ∧
        (∀ name, mixed.session.name = some name → x.name = name) ∧
        List.Forall₂ (Realises env (expandCwd env mixed.session.cwd) g'.state sid) mixed.windows
          x.windows := by
  have hlower : (lower env mixed).toOption.isSome = true := by decide +kernel
  cases hops : lower env mixed with
  | error e =>
    rw [hops] at hlower
    cases hlower
  | ok ops => exact ⟨ops, rfl, by decide +kernel, applyBatch_lower env mixed [] hops⟩

/-- A title with a control character, and a split of almost everything. -/
def clipped : Template ℚ where
  session := ⟨none, none⟩
  windows := [⟨['a', '\x07', 'b'], none, [⟨[], none, none, 1 / 2⟩, ⟨[], none, none, 99 / 100⟩]⟩]

/-- Titles are sanitised and ratios clamped. -/
theorem applyBatch_lower_clipped :
    (lower env clipped).toOption.isSome = true ∧ (made clipped).state.sessions.size = 1 ∧
      (∀ w ∈ (made clipped).state.windows.values, w.title ∉ clipped.windows.map WindowTpl.title) ∧
      ∀ w ∈ (made clipped).state.windows.values,
        ((spread w.layout.tree).2.map fun split => split.2.1) ≠ [99 / 100] := by
  decide +kernel

end Sample

end Shux.Persist
