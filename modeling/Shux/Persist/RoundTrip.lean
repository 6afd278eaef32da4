/-
# Saving and restoring

The template of a session, read back and lowered, is the batch that makes the session's
windows one by one. Applied to a graph without the session it is accepted, and it makes a
session of that name with windows of the same titles and the same panes in the same order. The
layout of a window comes back as it was when its tree is a chain, each split with a single
pane first; templates can express no other.
-/

import Shux.Persist.Restore

namespace Shux.Persist

open Proc SessionGraph List ExportWindow

variable {R : Type}

/-- The first pane of a tree and the others, each with the split whose second half it opens. -/
def spread : LayoutNode R → PaneId × List (Direction × R × PaneId)
  | .leaf pane => (pane, [])
  | .node d r a b => ((spread a).1, (spread a).2 ++ (d, r, (spread b).1) :: (spread b).2)

theorem paneIds_eq_spread (t : LayoutNode R) :
    t.paneIds = (spread t).1 :: (spread t).2.map fun split => split.2.2 := by
  induction t with
  | leaf pane => rfl
  | node d r a b iha ihb => simp [LayoutNode.paneIds, spread, iha, ihb]

/-- A tree in which each split has a single pane first. -/
def IsChain : LayoutNode R → Prop
  | .leaf _ => True
  | .node _ _ a b => (∃ pane, a = .leaf pane) ∧ IsChain b

/-- The same splits in the same places, with the ratios mapped. -/
def SameShape (f : R → R) : LayoutNode R → LayoutNode R → Prop
  | .leaf _, .leaf _ => True
  | .node d r a b, .node d' r' a' b' => d' = d ∧ r' = f r ∧ SameShape f a a' ∧ SameShape f b b'
  | _, _ => False

section Specs

variable (s : SessionGraphSnapshot R)

/-- What a pane runs, and where. -/
def specOf (pid : PaneId) : PaneSpec :=
  match s.panes.get pid with
  | some p => ⟨p.command, p.cwd⟩
  | none => ⟨[], []⟩

theorem specOf_eq {s : SessionGraphSnapshot R} {pid : PaneId} {p : Pane}
    (h : s.panes.get pid = some p) : specOf s pid = ⟨p.command, p.cwd⟩ := by
  rw [specOf, h]

variable [TemplateRatio R]

/-- The window that a saved window is restored to. -/
def windowSpec (w : Window R) : WindowSpec R where
  title := w.title
  first := specOf s (spread w.layout.tree).1
  more := (spread w.layout.tree).2.map fun split =>
    (split.1, TemplateRatio.roundRatio split.2.1, specOf s split.2.2)

/-- What is saved of a pane. -/
def exported (pid : PaneId) (split : Option (Direction × R)) : ExportPane R where
  command := (specOf s pid).command
  cwd := (specOf s pid).cwd.toStringLossy
  direction := split.map Prod.fst
  ratio := split.map fun split => TemplateRatio.roundRatio split.2

variable {s}

theorem exportPane_eq {pid : PaneId} {p : Pane} (h : s.panes.get pid = some p)
    (split : Option (Direction × R)) : exportPane p split = exported s pid split := by
  simp [exportPane, exported, specOf_eq h]

/-- Flattening lists the panes from left to right, each with its split. -/
theorem flattenLayout_eq {t : LayoutNode R}
    (h : ∀ pid ∈ t.paneIds, ∃ p, s.panes.get pid = some p) (split : Option (Direction × R)) :
    flattenLayout s t split = .ok (exported s (spread t).1 split ::
      (spread t).2.map fun split => exported s split.2.2 (some (split.1, split.2.1))) := by
  induction t generalizing split with
  | leaf pane =>
    obtain ⟨p, hp⟩ := h pane (by simp [LayoutNode.paneIds])
    simp [flattenLayout, hp, exportPane_eq hp, spread]
  | node d r a b iha ihb =>
    have ha := iha (fun pid hmem => h pid (mem_append_left _ hmem)) split
    have hb := ihb (fun pid hmem => h pid (mem_append_right _ hmem)) (some (d, r))
    rw [flattenLayout, ha, hb]
    simp [spread, bind, Except.bind, pure, Except.pure]

end Specs

/-- A directory that a template can spell: text that does not start at the home directory. -/
def Spelled (cwd : PathBuf) : Prop :=
  cwd.toStr.isSome = true ∧ cwd ≠ [.char '~'] ∧ ¬ [.char '~', .char '/'] <+: cwd

theorem ofStr_toStr {cwd : PathBuf} {text : Str} (h : cwd.toStr = some text) :
    cwd = .ofStr text ∧ cwd.toStringLossy = text := by
  induction cwd generalizing text with
  | nil =>
    cases h
    exact ⟨rfl, rfl⟩
  | cons unit rest ih =>
    cases unit with
    | char c =>
      rw [PathBuf.toStr, Option.map_eq_some_iff] at h
      obtain ⟨tail, htail, rfl⟩ := h
      obtain ⟨hrest, hlossy⟩ := ih htail
      refine ⟨?_, ?_⟩
      · rw [PathBuf.ofStr, map_cons, hrest]
        rfl
      · rw [PathBuf.toStringLossy, map_cons] at *
        rw [hlossy]
    | invalid bytes => cases h

/-- Such a directory is read back as it was. -/
theorem expandString_toStringLossy (env : Env) {cwd : PathBuf} (h : Spelled cwd) :
    expandString env cwd.toStringLossy = cwd := by
  obtain ⟨htext, hhome, hunder⟩ := h
  obtain ⟨text, htext⟩ := Option.isSome_iff_exists.1 htext
  obtain ⟨rfl, hlossy⟩ := ofStr_toStr htext
  rw [hlossy]
  unfold expandString
  split
  · exact (hunder ⟨_, rfl⟩).elim
  · exact (hhome rfl).elim
  · rfl

section Lowering

variable [TemplateRatio R] {s : SessionGraphSnapshot R}
variable {ws : List (Window R)} {w : Window R}

/-- What is saved of a window. -/
def exportedWindow (s : SessionGraphSnapshot R) (w : Window R) : ExportWindow R where
  title := w.title
  panes := exported s (spread w.layout.tree).1 none ::
    (spread w.layout.tree).2.map fun split => exported s split.2.2 (some (split.1, split.2.1))

/-- A window whose tree shows panes that exist, in directories that can be spelled. -/
def Expressible (s : SessionGraphSnapshot R) (w : Window R) : Prop :=
  ∀ pid ∈ w.layout.tree.paneIds, ∃ p, s.panes.get pid = some p ∧ Spelled p.cwd

omit [TemplateRatio R] in
theorem Expressible.spelled (h : Expressible s w) {pid : PaneId}
    (hmem : pid ∈ w.layout.tree.paneIds) : Spelled (specOf s pid).cwd := by
  obtain ⟨p, hp, hspelled⟩ := h pid hmem
  rw [specOf_eq hp]
  exact hspelled

theorem exportWindow_eq {wid : WindowId} (hw : s.windows.get wid = some w)
    (h : Expressible s w) : exportWindow s wid = .ok (exportedWindow s w) := by
  have hflat := flattenLayout_eq (s := s) (t := w.layout.tree)
    (fun pid hmem => (h pid hmem).imp fun _ hp => hp.1) none
  simp only [exportWindow, hw, hflat]
  rfl

/-- The windows of a session, saved one after another. -/
theorem mapM_exportWindow {wids : List WindowId}
    (h : List.Forall₂ (fun wid w => s.windows.get wid = some w) wids ws)
    (hall : ∀ w ∈ ws, Expressible s w) :
    wids.mapM (exportWindow s) = .ok (ws.map (exportedWindow s)) := by
  induction h with
  | nil => rfl
  | cons hwindow _ ih =>
    rw [mapM_cons, exportWindow_eq hwindow (hall _ mem_cons_self),
      ih fun w hmem => hall w (mem_cons_of_mem _ hmem)]
    rfl

variable [F32 R]

/-- The splits of a saved window are read back as they were, with rounded ratios. -/
theorem splitSpecs_exported (env : Env) {splits : List (Direction × R × PaneId)}
    (h : ∀ split ∈ splits, Spelled (specOf s split.2.2).cwd)
    (hround : ∀ split ∈ splits, clampRatio (TemplateRatio.roundRatio split.2.1) =
      TemplateRatio.roundRatio split.2.1) (prior : PathBuf) :
    splitSpecs env prior ((splits.map fun split =>
        exported s split.2.2 (some (split.1, split.2.1))).map ExportPane.readBack) =
      splits.map fun split =>
        (split.1, TemplateRatio.roundRatio split.2.1, specOf s split.2.2) := by
  induction splits generalizing prior with
  | nil => rfl
  | cons split rest ih =>
    have hcwd := expandString_toStringLossy env (h split mem_cons_self)
    simp only [map_cons, splitSpecs]
    rw [ih (fun other hmem => h other (mem_cons_of_mem _ hmem))
      fun other hmem => hround other (mem_cons_of_mem _ hmem)]
    simp [ExportPane.readBack, exported, hcwd, hround split mem_cons_self]

section

omit [TemplateRatio R] [F32 R]

theorem Expressible.splits (h : Expressible s w) :
    ∀ split ∈ (spread w.layout.tree).2, Spelled (specOf s split.2.2).cwd := by
  intro split hmem
  refine h.spelled ?_
  rw [paneIds_eq_spread]
  exact mem_cons_of_mem _ (mem_map_of_mem hmem)

theorem Expressible.first (h : Expressible s w) :
    Spelled (specOf s (spread w.layout.tree).1).cwd := by
  refine h.spelled ?_
  rw [paneIds_eq_spread]
  exact mem_cons_self

end

/-- Saved windows are read back as they were. -/
theorem windowSpecs_exported (env : Env) (sessionCwd : PathBuf)
    (h : ∀ w ∈ ws, Expressible s w ∧ sanitizeTitle w.title = w.title ∧
      ∀ split ∈ (spread w.layout.tree).2, clampRatio (TemplateRatio.roundRatio split.2.1) =
        TemplateRatio.roundRatio split.2.1) :
    windowSpecs env sessionCwd ((ws.map (exportedWindow s)).map readBack) =
      ws.map (windowSpec s) := by
  induction ws with
  | nil => rfl
  | cons w rest ih =>
    obtain ⟨hw, htitle, hround⟩ := h w mem_cons_self
    have hfirst := expandString_toStringLossy env hw.first
    simp only [map_cons, windowSpecs, exportedWindow, readBack]
    rw [splitSpecs_exported env hw.splits hround, ih fun v hmem => h v (mem_cons_of_mem _ hmem)]
    simp [ExportPane.readBack, exported, windowSpec, firstSpec, hfirst, htitle]

omit [TemplateRatio R] [F32 R] in
theorem findEmpty_eq_none_iff (index : Nat) (windows : List (WindowTpl R)) :
    findEmpty index windows = none ↔ ∀ w ∈ windows, w.panes ≠ [] := by
  induction windows generalizing index with
  | nil => simp [findEmpty]
  | cons w rest ih =>
    rw [findEmpty, forall_mem_cons, ← ih (index + 1)]
    split_ifs with hempty
    · simp [List.isEmpty_iff.1 hempty]
    · simp [mt List.isEmpty_iff.2 hempty]

omit [F32 R] in
/-- A session that can be saved is lowered to the batch of its windows. -/
theorem lower_exported (env : Env) {sid : SessionId} {x : Session}
    (hx : s.sessions.get sid = some x)
    (h : List.Forall₂ (fun wid w => s.windows.get wid = some w) x.windows (w :: ws))
    (hall : ∀ v ∈ w :: ws, Expressible s v) :
    ∃ tpl cwd first more, exportSessionTemplate s sid = .ok tpl ∧
      (exportedWindow s w).readBack.panes = first :: more ∧
      lower env tpl.readBack = .ok (templateOps env (some x.name) cwd
        (exportedWindow s w).readBack first more
          ((ws.map (exportedWindow s)).map readBack)) := by
  have hexport : ∃ cwd, exportSessionTemplate s sid =
      .ok ⟨⟨x.name, cwd⟩, (w :: ws).map (exportedWindow s)⟩ := by
    simp only [exportSessionTemplate, hx, mapM_exportWindow h hall]
    exact ⟨_, rfl⟩
  obtain ⟨cwd, hexport⟩ := hexport
  refine ⟨_, expandCwd env (some cwd), _, _, hexport, rfl, ?_⟩
  have hempty : findEmpty 0 (((w :: ws).map (exportedWindow s)).map readBack) =
      none := by
    refine (findEmpty_eq_none_iff 0 _).2 fun v hmem => ?_
    simp only [map_map, mem_map] at hmem
    obtain ⟨v, -, rfl⟩ := hmem
    simp [readBack, exportedWindow]
  simp only [ExportTemplate.readBack, lower, map_cons] at hempty ⊢
  rw [hempty]
  rfl

end Lowering

/-- A window that is not zoomed, with no pane at or under a directory `~`. -/
structure Plain (s : SessionGraphSnapshot R) (wid : WindowId) (w : Window R) : Prop where
  unzoomed : w.layout.zoom = none
  cwd : ∀ pid p, s.panes.get pid = some p → p.windowId = wid →
    p.cwd ≠ [.char '~'] ∧ ¬ [.char '~', .char '/'] <+: p.cwd

section Source

variable {s : SessionGraphSnapshot R} {sid : SessionId}

/-- A directory counts as more than any session may hold unless it is text. -/
theorem isSome_toStr_of_bounded (h : Bounded s) {pid : PaneId} {p : Pane}
    (hp : s.panes.get pid = some p) (hsession : s.sessionOf p.windowId = some sid) :
    p.cwd.toStr.isSome = true := by
  have hone := s.panes.sum_le_total
    (fun p => if s.sessionOf p.windowId = some sid then p.bytes else 0) (nodup_singleton pid)
  have hle : p.bytes ≤ maxSessionPaneBytes := by
    refine le_trans ?_ (h.bytes sid)
    simpa [hp, hsession, SessionGraphSnapshot.held] using hone
  cases htext : p.cwd.toStr with
  | some text => rfl
  | none =>
    have hsmall : maxSessionPaneBytes < usizeMax := by decide
    have hbytes : p.bytes = usizeMax := by
      simp only [Pane.bytes, paneBytes, htext, saturatingAdd]
      omega
    omega

/-- The windows of a session, as its list names them. -/
theorem exists_windows (hlinked : Linked s) {x : Session} (hx : s.sessions.get sid = some x) :
    ∃ ws, List.Forall₂ (fun wid w => s.windows.get wid = some w) x.windows ws ∧
      (∀ w ∈ ws, s.windows.get w.id = some w ∧ w.sessionId = sid ∧ w.id ∈ x.windows) ∧
        ws.map Window.id = x.windows := by
  have hall := hlinked.windows_exist sid x hx
  generalize x.windows = wids at hall
  induction wids with
  | nil => exact ⟨[], .nil, by simp, rfl⟩
  | cons wid rest ih =>
    obtain ⟨w, hw, hsid⟩ := hall wid mem_cons_self
    obtain ⟨ws, hws, hmem, hids⟩ := ih fun other hother => hall other (mem_cons_of_mem _ hother)
    have hid := hlinked.window_id wid w hw
    refine ⟨w :: ws, .cons hw hws, ?_, by rw [map_cons, hids, hid]⟩
    intro v hv
    rcases mem_cons.1 hv with rfl | hv
    · rw [hid]
      exact ⟨hw, hsid, mem_cons_self⟩
    · exact ⟨(hmem v hv).1, (hmem v hv).2.1, mem_cons_of_mem _ (hmem v hv).2.2⟩

/-- The panes that unzoomed windows show are all different. -/
theorem nodup_shown (htiled : Tiled s) {ws : List (Window R)}
    (hget : ∀ w ∈ ws, s.windows.get w.id = some w) (hnodup : (ws.map Window.id).Nodup)
    (hzoom : ∀ w ∈ ws, w.layout.zoom = none) :
    (ws.flatMap fun w => w.layout.tree.paneIds).Nodup := by
  rw [nodup_flatMap]
  constructor
  · intro w hw
    have hlayout := (htiled _ w (hget w hw)).layout.nodup
    rwa [WindowLayout.full_of_unzoomed (hzoom w hw)] at hlayout
  · rw [List.Nodup, pairwise_map] at hnodup
    refine hnodup.imp_of_mem fun {w w'} hw hw' hne pid hmem hmem' => hne ?_
    obtain ⟨p, hp, hwid⟩ := (htiled _ w (hget w hw)).houses_of_shown hmem
    obtain ⟨p', hp', hwid'⟩ := (htiled _ w' (hget w' hw')).houses_of_shown hmem'
    rw [hp] at hp'
    cases hp'
    exact hwid.symm.trans hwid'

variable [TemplateRatio R]

theorem weight_windowSpec (f : PaneSpec → Nat) (w : Window R) :
    (windowSpec s w).weight f = (w.layout.tree.paneIds.map fun pid => f (specOf s pid)).sum := by
  rw [paneIds_eq_spread]
  simp [windowSpec, WindowSpec.weight, Function.comp_def]

theorem totalWeight_windowSpec (f : PaneSpec → Nat) (ws : List (Window R)) :
    totalWeight f (ws.map (windowSpec s)) =
      ((ws.flatMap fun w => w.layout.tree.paneIds).map fun pid => f (specOf s pid)).sum := by
  induction ws with
  | nil => rfl
  | cons w rest ih =>
    have hcons : totalWeight f ((w :: rest).map (windowSpec s)) =
        (windowSpec s w).weight f + totalWeight f (rest.map (windowSpec s)) := rfl
    rw [hcons, ih, weight_windowSpec, flatMap_cons, map_append, sum_append]

/-- A restored session weighs no more than the saved one. -/
theorem totalWeight_le_held (htiled : Tiled s) {ws : List (Window R)}
    (hget : ∀ w ∈ ws, s.windows.get w.id = some w ∧ w.sessionId = sid)
    (hnodup : (ws.map Window.id).Nodup) (hzoom : ∀ w ∈ ws, w.layout.zoom = none)
    {f : PaneSpec → Nat} {weight : Pane → Nat}
    (hweight : ∀ p : Pane, f ⟨p.command, p.cwd⟩ = weight p) :
    totalWeight f (ws.map (windowSpec s)) ≤ s.held sid weight := by
  have hshown := nodup_shown htiled (fun w hw => (hget w hw).1) hnodup hzoom
  rw [totalWeight_windowSpec]
  refine le_trans (le_of_eq ?_) (s.panes.sum_le_total _ hshown)
  refine congrArg List.sum (map_congr_left fun pid hmem => ?_)
  obtain ⟨w, hw, hpid⟩ := mem_flatMap.1 hmem
  obtain ⟨p, hp, hwid⟩ := (htiled _ w (hget w hw).1).houses_of_shown hpid
  have hsession : s.sessionOf p.windowId = some sid := by
    rw [SessionGraphSnapshot.sessionOf, hwid, (hget w hw).1, Option.map_some, (hget w hw).2]
  simp [specOf_eq hp, hp, hsession, hweight]

end Source

/-- What rounding keeps: a ratio within the bounds stays within them. -/
class LawfulTemplateRatio (R : Type) [F32 R] [TemplateRatio R] : Prop where
  roundRatio_settled : ∀ r : R, clampRatio r = r →
    clampRatio (TemplateRatio.roundRatio r) = TemplateRatio.roundRatio r

/-- Two panes that run the same command in the same directory. -/
def SamePane (s s' : SessionGraphSnapshot R) (pid pid' : PaneId) : Prop :=
  ∃ p p', s.panes.get pid = some p ∧ s'.panes.get pid' = some p' ∧ p'.command = p.command ∧
    p'.cwd = p.cwd

section Trees

variable [TemplateRatio R]

/-- What a window comes back as: the same title, the same panes from left to right with the
same splits between them, and the same tree when that tree is a chain. -/
structure RestoredWindow (s s' : SessionGraphSnapshot R) (sid' : SessionId) (w w' : Window R) :
    Prop where
  session : w'.sessionId = sid'
  title : w'.title = w.title
  unzoomed : w'.layout.zoom = none
  panes : List.Forall₂ (SamePane s s') w.layout.tree.paneIds w'.layout.tree.paneIds
  splits : ((spread w'.layout.tree).2.map fun split => (split.1, split.2.1)) =
    (spread w.layout.tree).2.map fun split => (split.1, TemplateRatio.roundRatio split.2.1)
  shape : SameShape TemplateRatio.roundRatio w.layout.tree w'.layout.tree ↔ IsChain w.layout.tree

end Trees

section Chains

variable {s' : SessionGraphSnapshot R} {wid' : WindowId}
variable {more : List (Direction × R × PaneSpec)}
variable {t : LayoutNode R} {spec : PaneSpec}

/-- The panes of a chain, from left to right. -/
theorem Chain.runs (h : Chain s' wid' spec more t) :
    List.Forall₂ (Runs s' wid') (spec :: more.map fun split => split.2.2) t.paneIds := by
  induction more generalizing spec t with
  | nil =>
    obtain ⟨pid, rfl, hruns⟩ := h
    exact .cons hruns .nil
  | cons split rest ih =>
    obtain ⟨pid, tail, rfl, hruns, htail⟩ := h
    exact .cons hruns (ih htail)

/-- The splits of a chain, from left to right. -/
theorem Chain.spread_eq (h : Chain s' wid' spec more t) :
    ((spread t).2.map fun split => (split.1, split.2.1)) =
      more.map fun split => (split.1, split.2.1) := by
  induction more generalizing spec t with
  | nil =>
    obtain ⟨pid, rfl, -⟩ := h
    rfl
  | cons split rest ih =>
    obtain ⟨pid, tail, rfl, -, htail⟩ := h
    simp [spread, ih htail]

theorem Chain.isChain (h : Chain s' wid' spec more t) : IsChain t := by
  induction more generalizing spec t with
  | nil =>
    obtain ⟨pid, rfl, -⟩ := h
    trivial
  | cons split rest ih =>
    obtain ⟨pid, tail, rfl, -, htail⟩ := h
    exact ⟨⟨pid, rfl⟩, ih htail⟩

/-- Two chains with the same splits have the same shape. -/
theorem sameShape_of_isChain {f : R → R} {t' : LayoutNode R} (h : IsChain t) (h' : IsChain t')
    (hsplits : ((spread t').2.map fun split => (split.1, split.2.1)) =
      (spread t).2.map fun split => (split.1, f split.2.1)) : SameShape f t t' := by
  induction t generalizing t' with
  | leaf pane =>
    cases t' with
    | leaf pane' => trivial
    | node d' r' a' b' => simp [spread] at hsplits
  | node d r a b _ ihb =>
    obtain ⟨⟨pane, rfl⟩, hb⟩ := h
    cases t' with
    | leaf pane' => simp [spread] at hsplits
    | node d' r' a' b' =>
      obtain ⟨⟨pane', rfl⟩, hb'⟩ := h'
      simp only [spread, nil_append, map_cons, List.cons.injEq, Prod.mk.injEq]
        at hsplits
      exact ⟨hsplits.1.1, hsplits.1.2, trivial, ihb hb hb' hsplits.2⟩

/-- Only a chain has the shape of a chain. -/
theorem IsChain.of_sameShape {f : R → R} {t' : LayoutNode R} (h' : IsChain t')
    (h : SameShape f t t') : IsChain t := by
  induction t generalizing t' with
  | leaf pane => trivial
  | node d r a b _ ihb =>
    cases t' with
    | leaf pane' => exact h.elim
    | node d' r' a' b' =>
      obtain ⟨⟨pane', rfl⟩, hb'⟩ := h'
      obtain ⟨-, -, ha, hb⟩ := h
      cases a with
      | leaf pane => exact ⟨⟨pane, rfl⟩, ihb hb' hb⟩
      | node => exact ha.elim

end Chains

section Restored

variable [F32 R] [TemplateRatio R] [LawfulTemplateRatio R] {s s' : SessionGraphSnapshot R}

omit [TemplateRatio R] [LawfulTemplateRatio R] in
theorem settled_splits {t : LayoutNode R} (h : t.Settled) :
    ∀ split ∈ (spread t).2, clampRatio split.2.1 = split.2.1 := by
  induction t with
  | leaf pane => simp [spread]
  | node d r a b iha ihb =>
    obtain ⟨hr, ha, hb⟩ := h
    intro split hmem
    rw [spread, mem_append, mem_cons] at hmem
    rcases hmem with hmem | rfl | hmem
    · exact iha ha split hmem
    · exact hr
    · exact ihb hb split hmem

omit [LawfulTemplateRatio R] in
/-- A window made to the specification of another is that window come back. -/
theorem restoredWindow_of_made {w : Window R} {sid' : SessionId} {wid' : WindowId}
    (hexist : ∀ pid ∈ w.layout.tree.paneIds, ∃ p, s.panes.get pid = some p)
    (h : Made s' sid' (windowSpec s w) wid') :
    ∃ w', s'.windows.get wid' = some w' ∧ RestoredWindow s s' sid' w w' := by
  obtain ⟨w', t', hw', hsid, htitle, hlayout, hchain, -⟩ := h
  have htree : w'.layout.tree = t' := by rw [hlayout]
  have hsplits := hchain.spread_eq
  simp only [windowSpec, map_map, Function.comp_def] at hsplits
  refine ⟨w', hw', hsid, htitle, by rw [hlayout], ?_, ?_, ?_⟩
  · have hruns := hchain.runs
    have hspecs : ((windowSpec s w).first :: (windowSpec s w).more.map fun split => split.2.2) =
        w.layout.tree.paneIds.map (specOf s) := by
      rw [paneIds_eq_spread]
      simp [windowSpec, Function.comp_def]
    rw [hspecs, List.forall₂_map_left_iff] at hruns
    rw [htree]
    refine ((List.forall₂_and_left _ _).2 ⟨hexist, hruns⟩).imp ?_
    rintro pid pid' ⟨⟨p, hp⟩, p', hp', -, hcommand, hcwd⟩
    rw [specOf_eq hp] at hcommand hcwd
    exact ⟨p, p', hp, hp', hcommand, hcwd⟩
  · rw [htree, hsplits]
  · rw [htree]
    exact ⟨hchain.isChain.of_sameShape, fun h => sameShape_of_isChain h hchain.isChain hsplits⟩

end Restored

section RoundTrip

variable [Host] [F32 R] [LawfulF32 R] [TemplateRatio R] [LawfulTemplateRatio R]

omit [F32 R] [LawfulF32 R] [TemplateRatio R] [LawfulTemplateRatio R] in
theorem nodup_titles {s : SessionGraphSnapshot R} {sid : SessionId} (h : Named s)
    {ws : List (Window R)} (hget : ∀ w ∈ ws, s.windows.get w.id = some w ∧ w.sessionId = sid)
    (hnodup : (ws.map Window.id).Nodup) : (ws.map Window.title).Nodup := by
  rw [List.Nodup, pairwise_map] at hnodup ⊢
  refine hnodup.imp_of_mem fun {w w'} hw hw' hne htitle => hne ?_
  obtain ⟨hget₁, hsid⟩ := hget w hw
  obtain ⟨hget₂, hsid'⟩ := hget w' hw'
  exact h.titles_distinct _ _ _ _ hget₁ hget₂
    (by rw [Window.label, Window.label, hsid, hsid', htitle])

/-- The template of a session without zoomed windows, in a graph made without bare panes, is
read back and lowered to a batch that every graph without a session of the name accepts. The
session it makes has the same windows with the same panes. -/
theorem template_restores (env : Env) (cmds : List (GraphCommand R))
    (hbare : ∀ cmd ∈ cmds, cmd.isBare = false) :
    let s := (SessionGraph.newWithEventBus.run cmds : SessionGraph R).state
    ∀ sid x, s.sessions.get sid = some x →
      (∀ wid ∈ x.windows, ∀ w, s.windows.get wid = some w → Plain s wid w) →
      ∃ tpl ops, exportSessionTemplate s sid = .ok tpl ∧ lower env tpl.readBack = .ok ops ∧
        ∀ g : SessionGraph R, Reachable g → g.state.sessionNameExists x.name = false →
          ∃ result g', exec (SessionGraph.applyBatch ops) g = (.ok result, g') ∧
            ∃ sid' x', g'.state.sessions.get sid' = some x' ∧ x'.name = x.name ∧
              List.Forall₂ (fun wid wid' => ∃ w w', s.windows.get wid = some w ∧
                g'.state.windows.get wid' = some w' ∧ RestoredWindow s g'.state sid' w w')
                x.windows x'.windows := by
  intro s sid x hx hplain
  have horderly : Orderly (SessionGraph.newWithEventBus.run cmds : SessionGraph R) :=
    orderly_new.run cmds hbare
  have hlimited : Limited s := by
    obtain ⟨n, evs, hadvances⟩ := run_moves_tiled (.newWithEventBus : SessionGraph R) cmds hbare
    exact hadvances.trace.limited sound_default limited_default
  obtain ⟨ws, hws, hget, hids⟩ := exists_windows horderly.linked hx
  have hwin : ∀ w ∈ ws, s.windows.get w.id = some w ∧ w.sessionId = sid :=
    fun w hw => ⟨(hget w hw).1, (hget w hw).2.1⟩
  have hplain' : ∀ w ∈ ws, Plain s w.id w := fun w hw => hplain _ (hget w hw).2.2 w (hget w hw).1
  have hnodup : (ws.map Window.id).Nodup := hids ▸ horderly.linked.windows_nodup sid x hx
  have hzoom : ∀ w ∈ ws, w.layout.zoom = none := fun w hw => (hplain' w hw).unzoomed
  have hexpressible : ∀ w ∈ ws, Expressible s w := by
    intro w hw pid hmem
    obtain ⟨p, hp, hwid⟩ := (horderly.tiled _ w (hwin w hw).1).houses_of_shown hmem
    have hsession : s.sessionOf p.windowId = some sid := by
      rw [SessionGraphSnapshot.sessionOf, hwid, (hwin w hw).1, Option.map_some, (hwin w hw).2]
    obtain ⟨hhome, hunder⟩ := (hplain' w hw).cwd pid p hp hwid
    exact ⟨p, hp, isSome_toStr_of_bounded hlimited.toBounded hp hsession, hhome, hunder⟩
  have hsettled : ∀ w ∈ ws, w.layout.tree.Settled := by
    intro w hw
    have hfull := horderly.settled _ w (hwin w hw).1
    rwa [WindowLayout.full_of_unzoomed (hzoom w hw)] at hfull
  have hgood : ∀ w ∈ ws, GoodTitle w.title := fun w hw => hlimited.title_good _ w (hwin w hw).1
  cases ws with
  | nil =>
    rw [List.forall₂_nil_right_iff] at hws
    exact (horderly.linked.windows_ne_nil sid x hx hws).elim
  | cons w rest =>
    obtain ⟨tpl, cwd, first, more, hexport, hpanes, hlower⟩ :=
      lower_exported env hx hws hexpressible
    refine ⟨tpl, _, hexport, hlower, fun g hg hfree => ?_⟩
    have hcount : totalWeight (fun _ => 1) ((w :: rest).map (windowSpec s)) ≤
        maxPanesPerSession :=
      (totalWeight_le_held horderly.tiled hwin hnodup hzoom fun _ => rfl).trans
        (hlimited.panes sid)
    have hbytes : totalWeight PaneSpec.bytes ((w :: rest).map (windowSpec s)) ≤
        maxSessionPaneBytes :=
      (totalWeight_le_held horderly.tiled hwin hnodup hzoom fun _ => rfl).trans
        (hlimited.bytes sid)
    have htitles : ((w :: rest).map (windowSpec s)).map WindowSpec.title =
        (w :: rest).map Window.title := by
      rw [map_map]
      rfl
    have hspecs : windowSpecs env cwd ((exportedWindow s w).readBack ::
        (rest.map (exportedWindow s)).map readBack) =
          windowSpec s w :: rest.map (windowSpec s) :=
      windowSpecs_exported env cwd fun v hv => ⟨hexpressible v hv,
        ((goodTitle_iff _).1 (hgood v hv)).1, fun split hmem =>
          LawfulTemplateRatio.roundRatio_settled _ (settled_splits (hsettled v hv) split hmem)⟩
    have hbatch := applyBatch_session (E := False) g env hg.sound (some x.name) hpanes hspecs
      (fun _ => hlimited.name_valid sid x hx) (fun _ => hfree) (fun _ => ?_) (fun _ => ?_)
      fun _ => ⟨hcount, hbytes⟩
    · rw [Ensures] at hbatch
      split at hbatch
      · next result g' hexec =>
        obtain ⟨sid', x', t, -, -, hx', hname, hshown, hmade⟩ := hbatch
        refine ⟨result, g', hexec, sid', x', hx', hname, ?_⟩
        obtain rfl : t = w.title := hshown ((goodTitle_iff _).1 (hgood w mem_cons_self)).2.1
        have hmade' : List.Forall₂ (Made g'.state sid') ((w :: rest).map (windowSpec s))
            x'.windows := hmade
        rw [List.forall₂_map_left_iff] at hmade'
        have hboth : ∀ v ∈ w :: rest, s.windows.get v.id = some v ∧ Expressible s v :=
          fun v hv => ⟨(hwin v hv).1, hexpressible v hv⟩
        have hall := (List.forall₂_and_left _ _).2 ⟨hboth, hmade'⟩
        rw [← hids, List.forall₂_map_left_iff]
        refine hall.imp ?_
        rintro v wid' ⟨⟨hv, hshown⟩, hone⟩
        obtain ⟨w', hw', hrestored⟩ := restoredWindow_of_made
          (fun pid hmem => (hshown pid hmem).imp fun _ hp => hp.1) hone
        exact ⟨v, w', hv, hw', hrestored⟩
      · exact hbatch.elim
    · intro next hnext
      rw [← map_cons, ← map_cons, map_map, mem_map] at hnext
      obtain ⟨v, hv, rfl⟩ := hnext
      exact hgood v hv
    · rw [← map_cons, htitles]
      exact nodup_titles hlimited.toNamed hwin hnodup

end RoundTrip

instance : TemplateRatio ℚ where
  roundRatio r := (r * 1000 + 1 / 2).floor / 1000
  defaultRatio := 1 / 2

instance : LawfulTemplateRatio ℚ where
  roundRatio_settled r hr := by
    have hbounds : (5 / 100 : ℚ) ≤ r ∧ r ≤ 95 / 100 := by
      simp only [clampRatio, F32.lt, F32.minRatio, F32.maxRatio, decide_eq_true_eq] at hr
      split_ifs at hr <;> constructor <;> linarith
    have hlow : (50 : ℤ) ≤ (r * 1000 + 1 / 2).floor := by
      rw [Rat.le_floor_iff]
      push_cast
      linarith
    have hhigh : (r * 1000 + 1 / 2).floor ≤ 950 := by
      rw [← Int.lt_add_one_iff, Rat.floor_lt_iff]
      push_cast
      linarith
    have hlow' : (50 : ℚ) ≤ (r * 1000 + 1 / 2).floor := by exact_mod_cast hlow
    have hhigh' : ((r * 1000 + 1 / 2).floor : ℚ) ≤ 950 := by exact_mod_cast hhigh
    have hmin : ¬ ((r * 1000 + 1 / 2).floor : ℚ) / 1000 < 5 / 100 := by linarith
    have hmax : ¬ 95 / 100 < ((r * 1000 + 1 / 2).floor : ℚ) / 1000 := by linarith
    simp only [clampRatio, TemplateRatio.roundRatio, F32.lt, F32.minRatio, F32.maxRatio,
      decide_eq_true_eq, if_neg hmin, if_neg hmax]

def SameShape.decide [DecidableEq R] (f : R → R) :
    (t t' : LayoutNode R) → Decidable (SameShape f t t')
  | .leaf _, .leaf _ => .isTrue trivial
  | .leaf _, .node .. => .isFalse id
  | .node .., .leaf _ => .isFalse id
  | .node d r a b, .node d' r' a' b' =>
    have := SameShape.decide f a a'
    have := SameShape.decide f b b'
    inferInstanceAs (Decidable (d' = d ∧ r' = f r ∧ SameShape f a a' ∧ SameShape f b b'))

instance [DecidableEq R] (f : R → R) (t t' : LayoutNode R) : Decidable (SameShape f t t') :=
  SameShape.decide f t t'

namespace Sample

open Shux.Sample

def env : Env := ⟨some (.ofStr "/home".toList), .ofStr "/".toList⟩

/-- A session with a split window. -/
def flat : List (GraphCommand ℚ) := [create, .splitPane ⟨⟨1⟩⟩ .vertical (1 / 3) ["top".toList]]

/-- A session whose first pane is split twice. -/
def nested : List (GraphCommand ℚ) :=
  [create, .splitPane ⟨⟨1⟩⟩ .vertical (1 / 2) [], .splitPane ⟨⟨1⟩⟩ .horizontal (1 / 3) []]

/-- The batch a session is saved as. -/
def saved (s : SessionGraphSnapshot ℚ) (sid : SessionId) : List (Op ℚ) :=
  match exportSessionTemplate s sid with
  | .error _ => []
  | .ok tpl => (lower env tpl.readBack).toOption.getD []

/-- An empty graph to which a saved session is restored. -/
def restored (s : SessionGraphSnapshot ℚ) (sid : SessionId) : SessionGraph ℚ :=
  (exec (SessionGraph.applyBatch (saved s sid)) .newWithEventBus).2

/-- A session of two panes comes back. -/
theorem template_restores_flat :
    let s := (SessionGraph.newWithEventBus.run flat).state
    ∃ x tpl ops, s.sessions.get ⟨⟨9⟩⟩ = some x ∧ exportSessionTemplate s ⟨⟨9⟩⟩ = .ok tpl ∧
      lower env tpl.readBack = .ok ops ∧
      ∃ result g', exec (SessionGraph.applyBatch ops) .newWithEventBus = (.ok result, g') ∧
        ∃ sid' x', g'.state.sessions.get sid' = some x' ∧ x'.name = x.name ∧
          List.Forall₂ (fun wid wid' => ∃ w w', s.windows.get wid = some w ∧
            g'.state.windows.get wid' = some w' ∧ RestoredWindow s g'.state sid' w w')
            x.windows x'.windows := by
  intro s
  have hplain : (∀ w ∈ s.windows.values, w.layout.zoom = none) ∧ ∀ p ∈ s.panes.values,
      p.cwd ≠ [.char '~'] ∧ ¬ [.char '~', .char '/'] <+: p.cwd := by decide +kernel
  have hsession : (s.sessions.get ⟨⟨9⟩⟩).isSome = true := by decide +kernel
  obtain ⟨x, hx⟩ := Option.isSome_iff_exists.1 hsession
  obtain ⟨tpl, ops, hexport, hlower, hrestores⟩ := template_restores env flat (by decide) _ x hx
    fun wid _ w hw => ⟨hplain.1 w ((FinMap.mem_values_iff _ _).2 ⟨wid, hw⟩), fun pid p hp _ =>
      hplain.2 p ((FinMap.mem_values_iff _ _).2 ⟨pid, hp⟩)⟩
  exact ⟨x, tpl, ops, hx, hexport, hlower, hrestores .newWithEventBus ⟨[], rfl⟩ rfl⟩

/-- A tree whose first half is split comes back with its second half split. -/
theorem template_restores_nested :
    let s := (SessionGraph.newWithEventBus.run nested).state
    let s' := (restored s ⟨⟨9⟩⟩).state
    (s.sessions.get ⟨⟨9⟩⟩).isSome = true ∧ s'.sessions.size = 1 ∧
      ∃ w ∈ s.windows.values, ∀ w' ∈ s'.windows.values,
        ¬ SameShape TemplateRatio.roundRatio w.layout.tree w'.layout.tree := by
  decide +kernel

end Sample

end Shux.Persist
