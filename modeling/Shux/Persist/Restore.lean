/-
# What a restored session is like

A lowered template is a batch that makes one window after another, each by splitting the pane
made last. The first part of this module follows such a batch through the staging of its
operations: nothing in it is refused, and each window it leaves is a chain of panes, in the
order of the template.

The second part is about the template a session is saved as. The panes of a window come out in
the order of its tree. Splitting always the last pane makes chains only, so a tree comes back
as it was when each of its splits has a single pane first.
-/

import Shux.Persist.Template
import Shux.Core.Focus
import Shux.Core.Capacity

namespace Shux.Persist

open Proc SessionGraph List LayoutNode FinMap SessionGraphSnapshot

variable {R : Type}

/-- What a pane is to run, and where. -/
structure PaneSpec where
  command : List Str
  cwd : PathBuf

/-- A window to be made: its title, its first pane, and the panes split off one another. -/
structure WindowSpec (R : Type) where
  title : Str
  first : PaneSpec
  more : List (Direction × R × PaneSpec)

/-- The pane with this id runs this command there, in this window. -/
def Runs (s : SessionGraphSnapshot R) (wid : WindowId) (spec : PaneSpec) (pid : PaneId) : Prop :=
  ∃ p, s.panes.get pid = some p ∧ p.windowId = wid ∧ p.command = spec.command ∧ p.cwd = spec.cwd

/-- A tree in which each split has one pane first and the rest of the chain second. -/
def Chain (s : SessionGraphSnapshot R) (wid : WindowId) :
    PaneSpec → List (Direction × R × PaneSpec) → LayoutNode R → Prop
  | spec, [], t => ∃ pid, t = .leaf pid ∧ Runs s wid spec pid
  | spec, (d, r, pane) :: rest, t => ∃ pid tail, t = .node d r (.leaf pid) tail ∧
      Runs s wid spec pid ∧ Chain s wid pane rest tail

/-- The last pane of a chain. -/
def lastPane : LayoutNode R → PaneId
  | .leaf pid => pid
  | .node _ _ _ b => lastPane b

theorem lastPane_mem (t : LayoutNode R) : lastPane t ∈ t.paneIds := by
  induction t with
  | leaf pid => simp [lastPane, paneIds]
  | node d r a b _ ihb => exact mem_append_right _ ihb

/-- What the last pane of a window is to run, and where. -/
def lastSpec : PaneSpec → List (Direction × R × PaneSpec) → PaneSpec
  | spec, [] => spec
  | _, split :: rest => lastSpec split.2.2 rest

@[simp]
theorem lastSpec_append (spec : PaneSpec) (more : List (Direction × R × PaneSpec))
    (split : Direction × R × PaneSpec) : lastSpec spec (more ++ [split]) = split.2.2 := by
  induction more generalizing spec with
  | nil => rfl
  | cons other rest ih => exact ih other.2.2

section Trees

variable {s s' : SessionGraphSnapshot R} {wid : WindowId}
variable {more : List (Direction × R × PaneSpec)}
variable {t : LayoutNode R}

theorem Runs.mono (hpanes : ∀ pid p, s.panes.get pid = some p → s'.panes.get pid = some p)
    {spec : PaneSpec} {pid : PaneId} (h : Runs s wid spec pid) : Runs s' wid spec pid := by
  obtain ⟨p, hp, hrest⟩ := h
  exact ⟨p, hpanes pid p hp, hrest⟩

theorem Chain.mono (hpanes : ∀ pid p, s.panes.get pid = some p → s'.panes.get pid = some p)
    {spec : PaneSpec}
    (h : Chain s wid spec more t) : Chain s' wid spec more t := by
  induction more generalizing spec t with
  | nil =>
    obtain ⟨pid, rfl, hruns⟩ := h
    exact ⟨pid, rfl, hruns.mono hpanes⟩
  | cons split rest ih =>
    obtain ⟨pid, tail, rfl, hruns, htail⟩ := h
    exact ⟨pid, tail, rfl, hruns.mono hpanes, ih htail⟩

/-- Every pane of a chain is a pane of the window. -/
theorem Chain.houses {spec : PaneSpec} (h : Chain s wid spec more t) :
    ∀ pid ∈ t.paneIds, ∃ p, s.panes.get pid = some p ∧ p.windowId = wid := by
  induction more generalizing spec t with
  | nil =>
    obtain ⟨pid, rfl, p, hp, hwid, -⟩ := h
    intro pid' hmem
    rw [paneIds, mem_singleton] at hmem
    exact ⟨p, hmem ▸ hp, hwid⟩
  | cons split rest ih =>
    obtain ⟨pid, tail, rfl, ⟨p, hp, hwid, -⟩, htail⟩ := h
    intro pid' hmem
    rw [paneIds, paneIds, singleton_append, mem_cons] at hmem
    rcases hmem with rfl | hmem
    · exact ⟨p, hp, hwid⟩
    · exact ih htail pid' hmem

theorem Chain.runs_last {spec : PaneSpec} (h : Chain s wid spec more t) :
    Runs s wid (lastSpec spec more) (lastPane t) := by
  induction more generalizing spec t with
  | nil =>
    obtain ⟨pid, rfl, hruns⟩ := h
    exact hruns
  | cons split rest ih =>
    obtain ⟨pid, tail, rfl, -, htail⟩ := h
    have hlast := ih htail
    exact hlast

variable [F32 R]

/-- Splitting the last pane of a chain makes the chain one pane longer. -/
theorem Chain.split {spec : PaneSpec} (h : Chain s wid spec more t) (hnodup : t.paneIds.Nodup)
    (hsettled : ∀ split ∈ more, clampRatio split.2.1 = split.2.1) {new : PaneId}
    {next : PaneSpec} (hnew : Runs s wid next new) (d : Direction) (r : R) :
    ∃ t', t.splitPane (lastPane t) new d r = some t' ∧
      Chain s wid spec (more ++ [(d, clampRatio r, next)]) t' ∧
      t'.paneIds = t.paneIds ++ [new] ∧ lastPane t' = new := by
  induction more generalizing spec t with
  | nil =>
    obtain ⟨pid, rfl, hruns⟩ := h
    refine ⟨.split d r (.leaf pid) (.leaf new), by simp [splitPane, lastPane], ?_, ?_, ?_⟩
    · exact ⟨pid, .leaf new, rfl, hruns, new, rfl, hnew⟩
    · rfl
    · rfl
  | cons split rest ih =>
    obtain ⟨pid, tail, rfl, hruns, htail⟩ := h
    rw [paneIds, paneIds, singleton_append, nodup_cons] at hnodup
    obtain ⟨t', hsplit, hchain, hids, hlast⟩ := ih htail hnodup.2
      fun split hmem => hsettled split (mem_cons_of_mem _ hmem)
    have hne : pid ≠ lastPane tail := fun heq => hnodup.1 (heq ▸ lastPane_mem tail)
    have hratio : clampRatio split.2.1 = split.2.1 := hsettled split mem_cons_self
    refine ⟨.node split.1 split.2.1 (.leaf pid) t', ?_, ⟨pid, t', rfl, hruns, hchain⟩, ?_, hlast⟩
    · simp [splitPane, lastPane, hne, hsplit, LayoutNode.split, hratio]
    · simp [paneIds, hids]

end Trees

def PaneSpec.bytes (spec : PaneSpec) : Nat := paneBytes spec.command spec.cwd

/-- What the panes of a window weigh together. -/
def WindowSpec.weight (f : PaneSpec → Nat) (spec : WindowSpec R) : Nat :=
  f spec.first + (spec.more.map fun split => f split.2.2).sum

def totalWeight (f : PaneSpec → Nat) (specs : List (WindowSpec R)) : Nat :=
  (specs.map (WindowSpec.weight f)).sum

theorem totalWeight_append (f : PaneSpec → Nat) (specs specs' : List (WindowSpec R)) :
    totalWeight f (specs ++ specs') = totalWeight f specs + totalWeight f specs' := by
  simp [totalWeight]

/-- What panes weigh is within what a session may hold, by number and by bytes. -/
def Fits (weigh : (PaneSpec → Nat) → Nat) : Prop :=
  weigh (fun _ => 1) ≤ maxPanesPerSession ∧ weigh PaneSpec.bytes ≤ maxSessionPaneBytes

theorem Fits.mono {weigh weigh' : (PaneSpec → Nat) → Nat} (h : Fits weigh)
    (hle : ∀ f, weigh' f ≤ weigh f) : Fits weigh' :=
  ⟨(hle _).trans h.1, (hle _).trans h.2⟩

section Staging

variable [F32 R] {s₀ : SessionGraphSnapshot R}
variable {specs : List (WindowSpec R)} {wids : List WindowId} {sid : SessionId}
  {staged : Staged R} {name : Str} {spec : WindowSpec R} (g : SessionGraph R)
variable {opIndex prior : Nat} {pane : PaneSpec} {title : Str} {E : Prop}
variable {cwd : Option PathBuf}

/-- A window made to specification. -/
def Made (s : SessionGraphSnapshot R) (sid : SessionId) (spec : WindowSpec R) (wid : WindowId) :
    Prop :=
  ∃ w t, s.windows.get wid = some w ∧ w.sessionId = sid ∧ w.title = spec.title ∧
    w.layout = ⟨t, none⟩ ∧ Chain s wid spec.first spec.more t ∧ t.paneIds.Nodup ∧
    ∀ split ∈ spec.more, clampRatio split.2.1 = split.2.1

/-- A session of which some windows have been made and one is being made, with no panes but
theirs. The other sessions are those of `s₀`. -/
structure Restoring (s₀ s : SessionGraphSnapshot R) (sid : SessionId) (name : Str)
    (specs : List (WindowSpec R)) (wids : List WindowId) (spec : WindowSpec R) (wid : WindowId) :
    Prop where
  fresh : s₀.sessions.get sid = none
  others : ∀ k, k ≠ sid → s.sessions.get k = s₀.sessions.get k
  session : ∃ x, s.sessions.get sid = some x ∧ x.name = name ∧ x.windows = wids ++ [wid]
  made : List.Forall₂ (Made s sid) specs wids
  last : Made s sid spec wid
  held : ∀ f : PaneSpec → Nat,
    s.held sid (fun p => f ⟨p.command, p.cwd⟩) ≤ totalWeight f (specs ++ [spec])

theorem Made.mono {s s' : SessionGraphSnapshot R} {wid : WindowId} (h : Made s sid spec wid)
    (hpanes : ∀ pid p, s.panes.get pid = some p → s'.panes.get pid = some p)
    (hwindow : s'.windows.get wid = s.windows.get wid) : Made s' sid spec wid := by
  obtain ⟨w, t, hw, hsid, htitle, hlayout, hchain, hrest⟩ := h
  exact ⟨w, t, hwindow.trans hw, hsid, htitle, hlayout, hchain.mono hpanes, hrest⟩

/-- Windows that nothing happened to. -/
theorem made_of_unchanged {s s' : SessionGraphSnapshot R} (h : List.Forall₂ (Made s sid) specs wids)
    (hpanes : ∀ pid p, s.panes.get pid = some p → s'.panes.get pid = some p)
    (hwindows : ∀ wid ∈ wids, s'.windows.get wid = s.windows.get wid) :
    List.Forall₂ (Made s' sid) specs wids := by
  induction h with
  | nil => exact .nil
  | cons hmade _ ih =>
    refine .cons (hmade.mono hpanes (hwindows _ mem_cons_self)) (ih fun wid hmem => ?_)
    exact hwindows wid (mem_cons_of_mem _ hmem)

section

omit [F32 R]

/-- Room is what the capacity check asks for. -/
theorem check_of_room {s : SessionGraphSnapshot R} {command : List Str}
    {cwd : PathBuf} (hpanes : s.held sid (fun _ => 1) + 1 ≤ maxPanesPerSession)
    (hbytes : s.held sid Pane.bytes + paneBytes command cwd ≤ maxSessionPaneBytes) :
    checkSessionCapacity s sid command cwd = .ok () := by
  have hsmall : maxSessionPaneBytes < usizeMax := by decide
  simp only [checkSessionCapacity, sessionUsage_eq, saturatingAdd]
  rw [if_neg (by omega), if_neg (by omega)]

/-- A pane that is added weighs on its session, and nothing else does. -/
theorem held_insert_le {s s' : SessionGraphSnapshot R} {pid : PaneId} {p : Pane}
    (hnew : s.panes.get pid = none) (hpanes : s'.panes = s.panes.insert pid p)
    (hretained : Retained s s' s.panes) (f : PaneSpec → Nat) :
    s'.held sid (fun p => f ⟨p.command, p.cwd⟩) ≤
      s.held sid (fun p => f ⟨p.command, p.cwd⟩) + f ⟨p.command, p.cwd⟩ := by
  rw [held, hpanes, total_insert _ _ _ hnew, Nat.add_comm]
  refine Nat.add_le_add (hretained.total_le sid _ fun p p' hcommand hcwd => ?_) ?_
  · rw [hcommand, hcwd]
  split_ifs
  · exact le_rfl
  · exact Nat.zero_le _

/-- A title that passes is stored sanitised. -/
theorem eq_sanitizeTitle {t : Str} (h : validateWindowTitle title = .ok t) :
    t = sanitizeTitle title := by
  rw [validateWindowTitle] at h
  split_ifs at h
  cases h
  rfl

theorem held_of_new {s : SessionGraphSnapshot R} (hlinked : Linked s)
    (hnone : s.sessions.get sid = none) (weight : Pane → Nat) : s.held sid weight = 0 := by
  refine held_eq_zero (fun wid w hw hsid => ?_) weight
  obtain ⟨x, hx, -⟩ := hlinked.window_listed wid w hw
  rw [hsid, hnone] at hx
  cases hx

end

variable {s : SessionGraphSnapshot R}

/-- A window of one pane, as it is made. -/
theorem made_new {wid : WindowId} {pid : PaneId} {spec : PaneSpec} (htitle : GoodTitle title)
    (hwindow : s.windows.get wid = some (.new wid sid title pid))
    (hpane : s.panes.get pid = some (.withCommand pid wid spec.cwd spec.command)) :
    Made s sid ⟨title, spec, []⟩ wid := by
  refine ⟨_, .leaf pid, hwindow, rfl, ((goodTitle_iff title).1 htitle).1, rfl, ?_, ?_, by simp⟩
  · exact ⟨pid, rfl, _, hpane, rfl, rfl, rfl⟩
  · simp [paneIds]

variable [Host]

omit [F32 R] [Host] in
theorem Quiet.drawn_le {g g' : SessionGraph R} (h : Quiet g g') : g.drawn ≤ g'.drawn := by
  obtain ⟨draws, seqs, rfl⟩ := h
  exact Nat.le_add_right _ _

section

variable (hsound : Sound g.drawn s) {spec : PaneSpec}
  (hname : ¬ E → validateSessionName name = .ok ())
  (hfree : ¬ E → s.sessionNameExists name = false)
  (htitle : ¬ E → GoodTitle title) (hbytes : ¬ E → spec.bytes ≤ maxSessionPaneBytes)
include hsound hname hfree htitle hbytes

omit [F32 R] in
/-- What staging a session makes. It fails for `E` only, when nothing else stands against it. -/
theorem stageCreateSession_exact :
    Ensures (stageCreateSession s name spec.cwd spec.command (some title)) g (fun _ _ => E)
      fun r g' => ∃ at₀ seq t, GoodTitle t ∧ (title ≠ [] → t = sanitizeTitle title) ∧
        Fresh g.drawn g'.drawn r.2.1.uuid ∧ Fresh g.drawn g'.drawn r.2.2.1.uuid ∧
        Fresh g.drawn g'.drawn r.2.2.2.1.uuid ∧
        r.1.panes = s.panes.insert r.2.2.2.1
          (.withCommand r.2.2.2.1 r.2.2.1 spec.cwd spec.command) ∧
        r.1.windows = s.windows.insert r.2.2.1 (.new r.2.2.1 r.2.1 t r.2.2.2.1) ∧
        r.1.sessions = s.sessions.insert r.2.1 (.new r.2.1 at₀ seq name r.2.2.1) := by
  refine .require_bind (fun e he => ?_) fun _ _ => ?_
  · by_contra hE
    rw [hname hE] at he
    cases he
  refine .guard (fun htaken => ?_) fun _ => ?_
  · by_contra hE
    rw [hfree hE] at htaken
    cases htaken
  refine .bind_ok (exec_SessionId_new g) ?_
  refine .require_bind (fun e he => ?_) fun _ _ => ?_
  · by_contra hE
    have hprobe : s.sessions.get ⟨Host.newV4 g.drawn⟩ = none :=
      hsound.drawn.get_session ⟨g.drawn, le_rfl, Nat.lt_succ_self _, rfl⟩
    rw [check_of_room] at he
    · cases he
    · rw [held_of_new hsound.linked hprobe]
      decide
    · rw [held_of_new hsound.linked hprobe, Nat.zero_add]
      exact hbytes hE
  refine .bind_ok (exec_PaneId_new _) ?_
  refine .bind_ok (exec_WindowId_new _) ?_
  refine .bind_ok (exec_newPane _ _ _ _) ?_
  refine .bind (P := fun t g' => (GoodTitle t ∧ (title ≠ [] → t = sanitizeTitle title)) ∧
    ∃ k, g' = g.take (4 + k) 0) ?_ ?_
  · cases title with
    | nil => exact ⟨⟨goodTitle_defaultTitle _ _ _ _, fun h => (h rfl).elim⟩, 3, rfl⟩
    | cons c raw =>
      show Ensures (require (validateWindowTitle (c :: raw))) _ _ _
      rw [Ensures, exec_require]
      cases hraw : validateWindowTitle (c :: raw) with
      | error e =>
        by_contra hE
        rw [htitle hE] at hraw
        cases hraw
      | ok t => exact ⟨⟨goodTitle_of_validate hraw, fun _ => eq_sanitizeTitle hraw⟩, 0, rfl⟩
  · rintro t _ ⟨⟨hgood, hshown⟩, k, rfl⟩
    refine .bind_ok (exec_SessionId_new _) ?_
    refine .bind_ok (exec_WindowId_new _) ?_
    refine .bind_ok (exec_newSession _ _ _) ?_
    simp only [SessionGraph.take_take, take_drawn]
    refine ⟨_, _, t, hgood, hshown, ?_, ?_, ?_, rfl, rfl, rfl⟩
    all_goals exact ⟨_, by omega, by rw [take_drawn]; omega, rfl⟩

/-- A session with its first window. -/
theorem stageCreateSession_ok :
    Ensures (stageCreateSession s name spec.cwd spec.command (some title)) g (fun _ _ => E)
      fun r g' => Sound g'.drawn r.1 ∧ ∃ t, (title ≠ [] → t = sanitizeTitle title) ∧
        Restoring s r.1 r.2.1 name [] [] ⟨t, spec, []⟩ r.2.2.1 ∧
        ∃ w, r.1.windows.get r.2.2.1 = some w ∧ w.layout = ⟨.leaf r.2.2.2.1, none⟩ := by
  refine ((stageCreateSession_spec g s name spec.cwd spec.command (some title)).and
    (stageCreateSession_exact g hsound hname hfree htitle hbytes)).mono (fun _ _ h => h.2) ?_
  rintro ⟨s', sid, wid, pid, evs⟩ g' ⟨⟨hquiet, hadds⟩, at₀, seq, t, hgood, hshown, hsid, hwid, hpid,
    hpanes, hwindows, hsessions⟩
  dsimp only at *
  have hretained : Retained s s' s.panes :=
    hsound.linked.retained_of_insert (hsound.drawn.get_window hwid) hwindows
  have hnewPane := hsound.drawn.get_pane hpid
  have hnone := hsound.drawn.get_session hsid
  have hempty := held_of_new hsound.linked hnone
  have hwindow : s'.windows.get wid = some (.new wid sid t pid) := by rw [hwindows, get_insert_self]
  have heffect : Effect stagedKinds g.drawn g'.drawn s s' evs := .addSession (Or.inl rfl) hadds
  refine ⟨heffect.sound (Quiet.drawn_le hquiet) hsound, t, hshown,
    ⟨hnone, ?_, ?_, .nil, ?_, fun f => ?_⟩, _, hwindow, rfl⟩
  · intro k hk
    rw [hsessions, get_insert, if_neg hk]
  · exact ⟨_, by rw [hsessions, get_insert_self], rfl, rfl⟩
  · exact made_new hgood hwindow (by rw [hpanes, get_insert_self])
  · have hle : s'.held sid _ ≤ _ + f spec := held_insert_le hnewPane hpanes hretained f
    rw [hempty] at hle
    simpa [totalWeight, WindowSpec.weight] using hle

end

omit [F32 R] in
/-- What staging a window makes. -/
theorem stageCreateWindow_exact {x : Session} (hsession : s.sessions.get sid = some x)
    {spec : PaneSpec} (htitle : ¬ E → GoodTitle title)
    (hfree : ¬ E → s.windowNameExistsInSession sid (sanitizeTitle title) = false)
    (hroom : ¬ E → checkSessionCapacity s sid spec.command spec.cwd = .ok ()) :
    Ensures (stageCreateWindow s sid title spec.cwd spec.command) g (fun _ _ => E)
      fun r g' => GoodTitle (sanitizeTitle title) ∧
        Fresh g.drawn g'.drawn r.2.1.uuid ∧ Fresh g.drawn g'.drawn r.2.2.1.uuid ∧
        r.1.panes = s.panes.insert r.2.2.1
          (.withCommand r.2.2.1 r.2.1 spec.cwd spec.command) ∧
        r.1.windows = s.windows.insert r.2.1 (.new r.2.1 sid (sanitizeTitle title) r.2.2.1) ∧
        r.1.sessions = s.sessions.modify sid fun x =>
          { x with windows := x.windows ++ [r.2.1], activeWindow := r.2.1,
                   version := x.version + 1 } := by
  refine .guard (fun hnone => ?_) fun _ => ?_
  · rw [Bool.not_eq_true', contains_eq_false_iff, hsession] at hnone
    cases hnone
  refine .require_bind (fun e he => ?_) fun t ht => ?_
  · by_contra hE
    rw [htitle hE] at he
    cases he
  have hgood := goodTitle_of_validate ht
  cases eq_sanitizeTitle ht
  refine .guard (fun htaken => ?_) fun _ => ?_
  · by_contra hE
    rw [hfree hE] at htaken
    cases htaken
  refine .require_bind (fun e he => ?_) fun _ _ => ?_
  · by_contra hE
    rw [hroom hE] at he
    cases he
  refine .bind_ok (exec_PaneId_new _) ?_
  refine .bind_ok (exec_WindowId_new _) ?_
  refine .bind_ok (exec_newPane _ _ _ _) ?_
  refine .bind_ok (exec_WindowId_new _) ?_
  simp only [SessionGraph.take_take, take_drawn]
  refine ⟨hgood, ?_, ?_, rfl, rfl, rfl⟩
  all_goals exact ⟨_, by omega, by rw [take_drawn]; omega, rfl⟩

section

omit [Host]

theorem exists_spec {s : SessionGraphSnapshot R} (h : List.Forall₂ (Made s sid) specs wids) :
    ∀ wid ∈ wids, ∃ spec ∈ specs, Made s sid spec wid := by
  induction h with
  | nil => simp
  | cons hmade _ ih =>
    refine forall_mem_cons.2 ⟨⟨_, mem_cons_self, hmade⟩, fun wid hmem => ?_⟩
    obtain ⟨spec, hspec, hmade⟩ := ih wid hmem
    exact ⟨spec, mem_cons_of_mem _ hspec, hmade⟩

/-- A title none of the windows has is free. -/
theorem Restoring.title_free {s : SessionGraphSnapshot R} {wid : WindowId}
    (h : Restoring s₀ s sid name specs wids spec wid)
    (hnew : ∀ other ∈ specs ++ [spec], other.title ≠ sanitizeTitle title) :
    s.windowNameExistsInSession sid (sanitizeTitle title) = false := by
  obtain ⟨x, hx, -, hwindows⟩ := h.session
  simp only [windowNameExistsInSession, findWindowByName,
    hx, sanitizeTitle_idem, Option.isSome_eq_false_iff, Option.isNone_iff_eq_none,
    List.find?_eq_none, mem_filterMap, decide_eq_true_eq, hwindows]
  rintro w ⟨k, hk, hw⟩
  have hspec : ∃ other ∈ specs ++ [spec], Made s sid other k := by
    rcases mem_append.1 hk with hk | hk
    · obtain ⟨other, hother, hmade⟩ := exists_spec h.made k hk
      exact ⟨other, mem_append_left _ hother, hmade⟩
    · rw [mem_singleton.1 hk]
      exact ⟨spec, by simp, h.last⟩
  obtain ⟨other, hother, w', -, hw', -, htitle', -⟩ := hspec
  rw [hw] at hw'
  cases hw'
  rw [htitle']
  exact hnew other hother

end

omit [Host] in
theorem Restoring.room {pane : PaneSpec} (h : Restoring s₀ s sid name specs wids spec wid)
    (hfits : Fits fun f => totalWeight f (specs ++ [spec]) + f pane) :
    checkSessionCapacity s sid pane.command pane.cwd = .ok () :=
  check_of_room ((Nat.add_le_add_right (h.held fun _ => 1) 1).trans hfits.1)
    ((Nat.add_le_add_right (h.held PaneSpec.bytes) _).trans hfits.2)

/-- One more window. -/
theorem stageCreateWindow_ok (hsound : Sound g.drawn s) {wid : WindowId}
    (h : Restoring s₀ s sid name specs wids spec wid) (htitle : ¬ E → GoodTitle title)
    (hnew : ¬ E → ∀ other ∈ specs ++ [spec], other.title ≠ sanitizeTitle title)
    (hfits : ¬ E → Fits fun f => totalWeight f (specs ++ [spec]) + f pane) :
    Ensures (stageCreateWindow s sid title pane.cwd pane.command) g (fun _ _ => E)
      fun r g' => Sound g'.drawn r.1 ∧ Restoring s₀ r.1 sid name (specs ++ [spec])
          (wids ++ [wid]) ⟨sanitizeTitle title, pane, []⟩ r.2.1 ∧
        ∃ w, r.1.windows.get r.2.1 = some w ∧ w.layout = ⟨.leaf r.2.2.1, none⟩ := by
  obtain ⟨x, hx, hname, hwindows⟩ := h.session
  refine ((stageCreateWindow_spec g s sid title pane.cwd pane.command).and
    (stageCreateWindow_exact g hx htitle (fun hE => h.title_free (hnew hE))
      fun hE => h.room (hfits hE))).mono (fun _ _ h => h.2) ?_
  rintro ⟨s', wid', pid, evs⟩ g' ⟨⟨hquiet, hadds⟩, hgood, hwid, hpid, hpanes', hwindows',
    hsessions'⟩
  dsimp only at *
  have hnewWindow := hsound.drawn.get_window hwid
  have hnewPane := hsound.drawn.get_pane hpid
  have hretained : Retained s s' s.panes := hsound.linked.retained_of_insert hnewWindow hwindows'
  have hwindow : s'.windows.get wid' = some (.new wid' sid (sanitizeTitle title) pid) := by
    rw [hwindows', get_insert_self]
  have hkeep : ∀ k p, s.panes.get k = some p → s'.panes.get k = some p := by
    intro k p hp
    rw [hpanes', get_insert, if_neg, hp]
    rintro rfl
    rw [hnewPane] at hp
    cases hp
  have hsame : ∀ k, (∃ spec, Made s sid spec k) → s'.windows.get k = s.windows.get k := by
    rintro k ⟨spec, w, -, hw, -⟩
    rw [hwindows', get_insert, if_neg]
    rintro rfl
    rw [hnewWindow] at hw
    cases hw
  have heffect : Effect stagedKinds g.drawn g'.drawn s s' evs :=
    .addWindow (Or.inr (Or.inl rfl)) hadds
  refine ⟨heffect.sound (Quiet.drawn_le hquiet) hsound, ⟨h.fresh, ?_, ?_, ?_, ?_, fun f => ?_⟩, _,
    hwindow, rfl⟩
  · intro k hk
    rw [hsessions', get_modify, if_neg hk, h.others k hk]
  · have hget : s'.sessions.get sid = some { x with
        windows := x.windows ++ [wid'], activeWindow := wid', version := x.version + 1 } := by
      rw [hsessions', get_modify, if_pos rfl, hx]
      rfl
    exact ⟨_, hget, hname, by rw [hwindows]⟩
  · refine rel_append (made_of_unchanged h.made hkeep fun k hk => ?_)
      (.cons (h.last.mono hkeep (hsame wid ⟨spec, h.last⟩)) .nil)
    obtain ⟨other, -, hmade⟩ := exists_spec h.made k hk
    exact hsame k ⟨other, hmade⟩
  · exact made_new hgood hwindow (by rw [hpanes', get_insert_self])
  · calc
      s'.held sid (fun p => f ⟨p.command, p.cwd⟩)
        ≤ s.held sid (fun p => f ⟨p.command, p.cwd⟩) + f pane :=
        held_insert_le hnewPane hpanes' hretained f
      _ ≤ totalWeight f (specs ++ [spec]) + f pane := Nat.add_le_add_right (h.held f) _
      _ ≤ _ := by
        rw [totalWeight_append _ (specs ++ [spec])]
        simp [totalWeight, WindowSpec.weight]

/-- What staging a split makes. -/
theorem stageSplitPane_exact {target : PaneId}
    {p : Pane} {w : Window R} (hpane : s.panes.get target = some p)
    (hwindow : s.windows.get p.windowId = some w) (hunzoomed : w.layout.zoom = none)
    (hmem : target ∈ w.layout.tree.paneIds) (d : Direction) (r : R) {spec : PaneSpec}
    (hcwd : cwd.getD p.cwd = spec.cwd)
    (hroom : ¬ E → checkSessionCapacity s w.sessionId spec.command spec.cwd = .ok ()) :
    Ensures (stageSplitPane s target d r spec.command cwd) g (fun _ _ => E)
      fun out g' => Fresh g.drawn g'.drawn out.2.1.uuid ∧ out.2.2.1 = p.windowId ∧
        out.2.2.2.1 = w.sessionId ∧ ∃ tree,
          w.layout.tree.splitPane target out.2.1 d r = some tree ∧
          out.1 = s.relayout p.windowId ⟨tree, none⟩ out.2.1 (s.panes.insert out.2.1
            (.withCommand out.2.1 p.windowId spec.cwd spec.command)) := by
  refine .okOr_some hpane ?_
  refine .okOr_some hwindow ?_
  rw [hcwd]
  refine .require_bind (fun e he => ?_) fun _ _ => ?_
  · by_contra hE
    rw [hroom hE] at he
    cases he
  refine .bind_ok (exec_newPane _ _ _ _) ?_
  have hfull : w.layout.full = w.layout.tree := WindowLayout.full_of_unzoomed hunzoomed
  refine .guard (fun hfail => ?_) fun hok => ?_
  · obtain ⟨tree, htree⟩ := Option.isSome_iff_exists.1
      ((splitPane_isSome_iff w.layout.tree target ⟨Host.newV4 g.drawn⟩ d r).2 hmem)
    rw [← hfull, WindowLayout.full] at htree
    have hdone : (w.layout.splitPane target ⟨Host.newV4 g.drawn⟩ d r).2 = true := by
      simp [WindowLayout.splitPane, htree]
    have hfailed : (!(w.layout.splitPane target ⟨Host.newV4 g.drawn⟩ d r).2) = true := hfail
    rw [hdone] at hfailed
    cases hfailed
  · rw [Bool.not_eq_true', Bool.not_eq_false] at hok
    obtain ⟨tree, htree, hlayout⟩ := WindowLayout.splitPane_ok hok
    rw [hfull] at htree
    refine ⟨⟨g.drawn, le_rfl, Nat.lt_succ_self _, rfl⟩, rfl, rfl, tree, htree, ?_⟩
    rw [← hlayout]
    rfl

/-- One more pane, split off the last one of the window that is being made. -/
theorem stageSplitPane_ok [LawfulF32 R] (hsound : Sound g.drawn s) {wid : WindowId}
    (h : Restoring s₀ s sid name specs wids spec wid) {w : Window R}
    (hw : s.windows.get wid = some w) (d : Direction) (r : R)
    (hcwd : cwd.getD (lastSpec spec.first spec.more).cwd = pane.cwd)
    (hfits : ¬ E → Fits fun f => totalWeight f (specs ++ [spec]) + f pane) :
    Ensures (stageSplitPane s (lastPane w.layout.tree) d r pane.command cwd) g
      (fun _ _ => E) fun out g' => Sound g'.drawn out.1 ∧
        Restoring s₀ out.1 sid name specs wids
          { spec with more := spec.more ++ [(d, clampRatio r, pane)] } wid ∧
        ∃ w', out.1.windows.get wid = some w' ∧ lastPane w'.layout.tree = out.2.1 := by
  obtain ⟨w₀, t, hw₀, hsid, htitle, hlayout, hchain, hnodup, hsettled⟩ := h.last
  rw [hw] at hw₀
  cases hw₀
  have htree : w.layout.tree = t := by rw [hlayout]
  have hunzoomed : w.layout.zoom = none := by rw [hlayout]
  obtain ⟨p, hp, hpwid, -, hpcwd⟩ := hchain.runs_last
  have hroom : ¬ E → checkSessionCapacity s w.sessionId pane.command pane.cwd = .ok () := by
    intro hE
    rw [hsid]
    exact h.room (hfits hE)
  rw [htree]
  refine ((stageSplitPane_spec g s (lastPane t) d r pane.command cwd).and
    (stageSplitPane_exact g hp (hpwid ▸ hw) hunzoomed (htree ▸ lastPane_mem t) d r
      (hpcwd ▸ hcwd) hroom)).mono (fun _ _ h => h.2) ?_
  rintro ⟨s', new, wid', sid', evs⟩ g' ⟨⟨hquiet, hsplits⟩, hnew, -, -, tree, hsplit, hs'⟩
  dsimp only at *
  rw [hpwid] at hs'
  rw [htree] at hsplit
  have heffect : Effect stagedKinds g.drawn g'.drawn s s' evs :=
    .splitPane (Or.inr (Or.inr rfl)) hsplits
  have hnewPane := hsound.drawn.get_pane hnew
  have hpanes' : s'.panes = s.panes.insert new (.withCommand new wid pane.cwd pane.command) := by
    rw [hs']
    rfl
  have hkeep : ∀ k q, s.panes.get k = some q → s'.panes.get k = some q := by
    intro k q hq
    rw [hpanes', get_insert, if_neg, hq]
    rintro rfl
    rw [hnewPane] at hq
    cases hq
  have hruns : Runs s' wid pane new := ⟨_, by rw [hpanes', get_insert_self], rfl, rfl, rfl⟩
  obtain ⟨t', hsplit', hchain', hids, hlast⟩ := (hchain.mono hkeep).split hnodup hsettled hruns d r
  rw [hsplit] at hsplit'
  cases hsplit'
  have hwindow : s'.windows.get wid = some
      { w with layout := ⟨tree, none⟩, activePane := new, version := w.version + 1 } := by
    rw [hs', relayout, get_modify, if_pos rfl, hw]
    rfl
  have hretained : Retained s s' s.panes := by
    intro k q hq
    refine ⟨q, hq, rfl, rfl, fun sid hin => ?_⟩
    rwa [hs', sessionOf_relayout] at hin
  refine ⟨heffect.sound (Quiet.drawn_le hquiet) hsound, ⟨h.fresh, ?_, ?_, ?_, ?_, fun f => ?_⟩, _,
    hwindow, hlast⟩
  · rw [hs']
    exact h.others
  · rw [hs']
    exact h.session
  · obtain ⟨x, hx, -, hwindows⟩ := h.session
    have hdistinct := hsound.linked.windows_nodup sid x hx
    rw [hwindows] at hdistinct
    refine made_of_unchanged h.made hkeep fun k hk => ?_
    rw [hs', relayout, get_modify, if_neg]
    rintro rfl
    exact disjoint_of_nodup_append hdistinct hk (mem_singleton_self _)
  · refine ⟨_, tree, hwindow, hsid, htitle, rfl, hchain', ?_, ?_⟩
    · rw [hids]
      refine nodup_append.2 ⟨hnodup, nodup_singleton _, ?_⟩
      rintro k hk _ hmem rfl
      rw [mem_singleton.1 hmem] at hk
      obtain ⟨q, hq, -⟩ := hchain.houses new hk
      rw [hnewPane] at hq
      cases hq
    · intro split hmem
      rcases mem_append.1 hmem with hmem | hmem
      · exact hsettled split hmem
      · rw [mem_singleton.1 hmem]
        exact clampRatio_clampRatio r
  · calc
      s'.held sid (fun p => f ⟨p.command, p.cwd⟩)
        ≤ s.held sid (fun p => f ⟨p.command, p.cwd⟩) + f pane :=
        held_insert_le hnewPane hpanes' hretained f
      _ ≤ totalWeight f (specs ++ [spec]) + f pane := Nat.add_le_add_right (h.held f) _
      _ ≤ _ := by
        simp [totalWeight, WindowSpec.weight, Nat.add_assoc]

/-! ## The batch -/

omit [Host] in
/-- The panes split off one another, each without a directory of its own in the directory of the
pane before it. -/
def splitSpecs (env : Env) (prior : PathBuf) : List (PaneTpl R) → List (Direction × R × PaneSpec)
  | [] => []
  | pane :: rest =>
    let cwd := (pane.cwd.map (expandString env)).getD prior
    (pane.direction.getD .vertical, clampRatio pane.ratio, ⟨pane.command, cwd⟩) ::
      splitSpecs env cwd rest

/-- The first pane of a window. -/
def firstSpec (env : Env) (sessionCwd : PathBuf) (window : WindowTpl R) (pane : PaneTpl R) :
    PaneSpec where
  command := pane.command
  cwd := (pane.cwd.map (expandString env)).getD
    ((window.cwd.map (expandString env)).getD sessionCwd)

/-- The windows that a template makes. -/
def windowSpecs (env : Env) (sessionCwd : PathBuf) : List (WindowTpl R) → List (WindowSpec R)
  | [] => []
  | window :: rest =>
    match window.panes with
    | [] => windowSpecs env sessionCwd rest
    | first :: more =>
      let spec := firstSpec env sessionCwd window first
      ⟨sanitizeTitle window.title, spec, splitSpecs env spec.cwd more⟩ ::
        windowSpecs env sessionCwd rest

/-- How far the staging of such a batch has come: the outputs name the session and the last
pane of the window that is being made. -/
structure Stage (s₀ : SessionGraphSnapshot R) (g : SessionGraph R) (staged : Staged R)
    (sid : SessionId) (name : Str) (specs : List (WindowSpec R)) (wids : List WindowId)
    (spec : WindowSpec R) (wid : WindowId) (prior opIndex : Nat) : Prop where
  sound : Sound g.drawn staged.snapshot
  restoring : Restoring s₀ staged.snapshot sid name specs wids spec wid
  length : staged.outputs.length = opIndex
  session : ∃ out, staged.outputs[0]? = some out ∧ out.sessionId = some sid
  prior : ∃ out w, staged.outputs[prior]? = some out ∧ staged.snapshot.windows.get wid = some w ∧
    out.paneId = some (lastPane w.layout.tree)

theorem Stage.session_concat {g : SessionGraph R} {wid : WindowId}
    (h : Stage s₀ g staged sid name specs wids spec wid prior opIndex) (new : OpOutput) :
    ∃ out, (staged.outputs ++ [new])[0]? = some out ∧ out.sessionId = some sid := by
  obtain ⟨out, hout, hsession⟩ := h.session
  refine ⟨out, ?_, hsession⟩
  rw [List.getElem?_append_left (List.getElem?_eq_some_iff.1 hout).1]
  exact hout

theorem stageOps_append {g : SessionGraph R}
    {ops ops' : List (Op R)} {P Q : Staged R → SessionGraph R → Prop}
    (h : Ensures (stageOps staged opIndex ops) g (fun _ _ => E) P)
    (h' : ∀ staged' g', P staged' g' →
      Ensures (stageOps staged' (opIndex + ops.length) ops') g' (fun _ _ => E) Q) :
    Ensures (stageOps staged opIndex (ops ++ ops')) g (fun _ _ => E) Q := by
  induction ops generalizing staged opIndex g with
  | nil => exact h' staged g h
  | cons op rest ih =>
    have hbind : Ensures (stageOp staged opIndex op >>= fun staged =>
        stageOps staged (opIndex + 1) rest) g (fun _ _ => E) P := h
    show Ensures (stageOp staged opIndex op >>= fun staged =>
        stageOps staged (opIndex + 1) (rest ++ ops')) g (fun _ _ => E) Q
    rw [Ensures, exec_bind] at hbind ⊢
    cases hexec : exec (stageOp staged opIndex op) g with
    | mk result g₁ =>
      rw [hexec] at hbind
      cases result with
      | error e => exact hbind
      | ok staged₁ =>
        refine ih hbind fun staged' g' hP => ?_
        have hindex : opIndex + 1 + rest.length = opIndex + (op :: rest).length := by
          rw [length_cons]
          omega
        rw [hindex]
        exact h' staged' g' hP

variable [LawfulF32 R] {wid : WindowId} (env : Env) {dir : PathBuf}

/-- A split of the batch. -/
theorem stageOp_split
    (h : Stage s₀ g staged sid name specs wids spec wid prior opIndex) (d : Direction) (r : R)
    (pane : PaneSpec) (hcwd : cwd.getD (lastSpec spec.first spec.more).cwd = pane.cwd)
    (hfits : ¬ E → Fits fun f => totalWeight f (specs ++ [spec]) + f pane) :
    Ensures (stageOp staged opIndex (.splitPane (.backRef prior) d r pane.command cwd)) g
      (fun _ _ => E) fun staged' g' => Stage s₀ g' staged' sid name specs wids
        { spec with more := spec.more ++ [(d, clampRatio r, pane)] } wid opIndex (opIndex + 1) := by
  obtain ⟨out, w, hout, hw, hpane⟩ := h.prior
  have hresolve : resolvePaneRef (.backRef prior) staged.outputs opIndex =
      .ok (lastPane w.layout.tree) := by
    simp [resolvePaneRef, hout, hpane]
  refine .require_ok hresolve ?_
  refine .bind (.mapError (stageSplitPane_ok g h.sound h.restoring hw d r hcwd hfits)) ?_
  rintro ⟨s', new, wid', sid', evs⟩ g' ⟨hsound, hrestoring, w', hw', hlast⟩
  dsimp only at *
  refine ⟨hsound, hrestoring, ?_, h.session_concat _,
    ⟨opIndex, some sid', some wid', some new⟩, w', ?_, hw', by rw [hlast]⟩
  · rw [length_append, h.length, length_singleton]
  · rw [← h.length]
    simp

/-- The splits of a window, one after another. -/
theorem stageOps_splits (h : Stage s₀ g staged sid name specs wids spec wid prior opIndex)
    (more : List (PaneTpl R)) (hdir : (lastSpec spec.first spec.more).cwd = dir)
    (hfits : ¬ E → Fits fun f => totalWeight f (specs ++ [spec]) +
      ((splitSpecs env dir more).map fun split => f split.2.2).sum) :
    Ensures (stageOps staged opIndex (lowerSplits env prior opIndex more)) g (fun _ _ => E)
      fun staged' g' => ∃ last, Stage s₀ g' staged' sid name specs wids
        { spec with more := spec.more ++ splitSpecs env dir more } wid last
          (opIndex + more.length) := by
  induction more generalizing g staged spec prior opIndex dir with
  | nil => exact ⟨prior, by simpa [splitSpecs] using h⟩
  | cons pane rest ih =>
    subst hdir
    refine .bind (stageOp_split g h (pane.direction.getD .vertical) pane.ratio
      ⟨pane.command, (pane.cwd.map (expandString env)).getD (lastSpec spec.first spec.more).cwd⟩
      rfl fun hE => (hfits hE).mono fun f => ?_) ?_
    · simp only [splitSpecs, map_cons, sum_cons]
      omega
    · rintro staged₁ g₁ hstage₁
      refine (ih g₁ hstage₁ (by rw [lastSpec_append]) fun hE => (hfits hE).mono fun f => ?_).mono
        (fun _ _ h => h) ?_
      · rw [totalWeight_append, totalWeight_append]
        simp only [totalWeight, WindowSpec.weight, splitSpecs, map_append, map_cons, map_nil,
          sum_append, sum_cons, sum_nil]
        omega
      · rintro staged₂ g₂ ⟨last, hstage₂⟩
        refine ⟨last, ?_⟩
        have hindex : opIndex + 1 + rest.length = opIndex + (pane :: rest).length := by
          rw [length_cons]
          omega
        simpa [splitSpecs, hindex] using hstage₂

omit [Host] [F32 R] [LawfulF32 R] in
theorem length_lowerSplits (prior opIndex : Nat) (more : List (PaneTpl R)) :
    (lowerSplits env prior opIndex more).length = more.length := by
  induction more generalizing prior opIndex with
  | nil => rfl
  | cons split rest ih => rw [lowerSplits, length_cons, ih, length_cons]

/-- A window of the batch, with the splits that follow it. -/
theorem stageOps_window (h : Stage s₀ g staged sid name specs wids spec wid prior opIndex)
    (first : PaneSpec) (more : List (PaneTpl R)) (htitle : ¬ E → GoodTitle title)
    {next : WindowSpec R}
    (hnext : next = ⟨sanitizeTitle title, first, splitSpecs env first.cwd more⟩)
    (hnew : ¬ E → ∀ other ∈ specs ++ [spec], other.title ≠ next.title)
    (hfits : ¬ E → Fits fun f => totalWeight f (specs ++ [spec]) + next.weight f) :
    Ensures (stageOps staged opIndex (.createWindow (.backRef 0) title (some first.cwd)
        first.command :: lowerSplits env opIndex (opIndex + 1) more)) g (fun _ _ => E)
      fun staged' g' => ∃ wid' last, Stage s₀ g' staged' sid name (specs ++ [spec])
        (wids ++ [wid]) next wid' last (opIndex + 1 + more.length) := by
  subst hnext
  obtain ⟨out, hout, hsession⟩ := h.session
  have hresolve : resolveSessionRef (.backRef 0) staged.outputs opIndex = .ok sid := by
    simp [resolveSessionRef, hout, hsession]
  have hone : Ensures (stageOp staged opIndex (.createWindow (.backRef 0) title
      (some first.cwd) first.command)) g (fun _ _ => E) fun staged' g' =>
        ∃ wid', Stage s₀ g' staged' sid name (specs ++ [spec]) (wids ++ [wid])
          ⟨sanitizeTitle title, first, []⟩ wid' opIndex (opIndex + 1) := by
    refine .require_ok hresolve ?_
    refine .bind_ok (exec_listValues _ _) ?_
    refine .bind (.mapError (stageCreateWindow_ok g h.sound h.restoring htitle hnew
      fun hE => (hfits hE).mono fun f => ?_)) ?_
    · simp only [WindowSpec.weight]
      omega
    rintro ⟨s', wid', pid, evs⟩ g' ⟨hsound, hrestoring, w, hw, hlayout⟩
    dsimp only at *
    refine ⟨wid', hsound, hrestoring, ?_, h.session_concat _,
      ⟨opIndex, some sid, some wid', some pid⟩, w, ?_, hw, by rw [hlayout, lastPane]⟩
    · rw [length_append, h.length, length_singleton]
    · rw [← h.length]
      simp
  refine .bind hone ?_
  rintro staged₁ g₁ ⟨wid', hstage₁⟩
  have hsplit := stageOps_splits (E := E) g₁ env hstage₁ more rfl
    fun hE => (hfits hE).mono fun f => ?_
  · refine hsplit.mono (fun _ _ h => h) ?_
    rintro staged₂ g₂ ⟨last, hstage₂⟩
    exact ⟨wid', last, hstage₂⟩
  · rw [totalWeight_append]
    simp only [totalWeight, WindowSpec.weight, map_cons, map_nil, sum_cons, sum_nil, lastSpec]
    omega

/-- The windows after the first, each with its splits. -/
theorem stageOps_windows (h : Stage s₀ g staged sid name specs wids spec wid prior opIndex)
    (windows : List (WindowTpl R)) (htitles : ¬ E → ∀ next ∈ windows, GoodTitle next.title)
    {rest : List (WindowSpec R)} (hrest : rest = windowSpecs env dir windows)
    (hdistinct : ¬ E → ((specs ++ [spec] ++ rest).map WindowSpec.title).Nodup)
    (hfits : ¬ E → Fits fun f => totalWeight f (specs ++ [spec] ++ rest)) :
    Ensures (stageOps staged opIndex (lowerWindows env dir opIndex windows)) g (fun _ _ => E)
      fun staged' g' => ∃ specs' wids' spec' wid' last index,
        specs' ++ [spec'] = specs ++ [spec] ++ rest ∧
          Stage s₀ g' staged' sid name specs' wids' spec' wid' last index := by
  induction windows generalizing g staged specs wids spec wid prior opIndex rest with
  | nil =>
    subst hrest
    exact ⟨specs, wids, spec, wid, prior, opIndex, by simp [windowSpecs], h⟩
  | cons window windows ih =>
    have htitles' : ¬ E → ∀ next ∈ windows, GoodTitle next.title := fun hE other hmem =>
      htitles hE other (mem_cons_of_mem _ hmem)
    rw [windowSpecs] at hrest
    rw [lowerWindows]
    split
    · rename_i hnone
      rw [hnone] at hrest
      exact ih g h htitles' hrest hdistinct hfits
    · rename_i first more hsome
      rw [hsome] at hrest
      subst hrest
      have hwindow := stageOps_window (E := E) g env h (firstSpec env dir window first) more
        (fun hE => htitles hE window mem_cons_self) rfl (fun hE => ?_)
        fun hE => (hfits hE).mono fun f => ?_
      · dsimp only
        rw [Option.or_some]
        refine stageOps_append hwindow ?_
        rintro staged₁ g₁ ⟨wid', last, hstage₁⟩
        rw [length_cons, length_lowerSplits, Nat.add_comm more.length, ← Nat.add_assoc]
        have hrest := ih g₁ hstage₁ htitles' rfl (fun hE => ?_) fun hE => ?_
        · refine hrest.mono (fun _ _ h => h) ?_
          rintro staged₂ g₂ ⟨specs', wids', spec', wid'', last', index, hspecs, hstage₂⟩
          refine ⟨specs', wids', spec', wid'', last', index, ?_, hstage₂⟩
          rw [hspecs]
          simp
        · simpa using hdistinct hE
        · simpa using hfits hE
      · have hdistinct := hdistinct hE
        intro other hother heq
        rw [map_append] at hdistinct
        refine disjoint_of_nodup_append hdistinct (mem_map_of_mem hother) ?_
        simp [heq]
      · rw [totalWeight_append f (specs ++ [spec])]
        simp only [totalWeight, map_cons, sum_cons]
        omega

/-- The batch of a template. -/
def templateOps (env : Env) (name : Option Str) (sessionCwd : PathBuf) (window : WindowTpl R)
    (first : PaneTpl R) (more : List (PaneTpl R)) (windows : List (WindowTpl R)) : List (Op R) :=
  .createSession name (firstSpec env sessionCwd window first).cwd first.command
      (some window.title) ::
    lowerSplits env 0 1 more ++ lowerWindows env sessionCwd (1 + more.length) windows

/-- A batch that makes a session fails for `E` only, when nothing else stands against it, and the
session it makes is to specification. -/
theorem applyBatch_session (hsound : Sound g.drawn g.state) (name : Option Str)
    {window : WindowTpl R} {first : PaneTpl R} {more : List (PaneTpl R)}
    {windows : List (WindowTpl R)} {spec : WindowSpec R} {rest : List (WindowSpec R)}
    (hpanes : window.panes = first :: more)
    (hspecs : windowSpecs env dir (window :: windows) = spec :: rest)
    (hname : ¬ E → validateSessionName (name.getD (freeSessionName g.state)) = .ok ())
    (hfree : ¬ E → g.state.sessionNameExists (name.getD (freeSessionName g.state)) = false)
    (htitles : ¬ E → ∀ next ∈ window :: windows, GoodTitle next.title)
    (hdistinct : ¬ E → ((spec :: rest).map WindowSpec.title).Nodup)
    (hfits : ¬ E → Fits fun f => totalWeight f (spec :: rest)) :
    Ensures (SessionGraph.applyBatch (templateOps env name dir window first more windows)) g
      (fun _ _ => E) fun _ g' => ∃ sid x t, g.state.sessions.get sid = none ∧
        (∀ k, k ≠ sid → g'.state.sessions.get k = g.state.sessions.get k) ∧
        g'.state.sessions.get sid = some x ∧ x.name = name.getD (freeSessionName g.state) ∧
        (window.title ≠ [] → t = spec.title) ∧
        List.Forall₂ (Made g'.state sid) ({ spec with title := t } :: rest) x.windows := by
  rw [windowSpecs, hpanes] at hspecs
  obtain ⟨rfl, rfl⟩ := List.cons.inj hspecs
  have hstart : Ensures (stageOp ⟨g.state, [], []⟩ 0 (.createSession name
      (firstSpec env dir window first).cwd first.command (some window.title))) g (fun _ _ => E)
      fun staged' g' => ∃ sid wid t, (window.title ≠ [] → t = sanitizeTitle window.title) ∧
        Stage g.state g' staged' sid (name.getD (freeSessionName g.state)) [] []
          ⟨t, firstSpec env dir window first, []⟩ wid 0 1 := by
    refine .bind (.mapError (stageCreateSession_ok g hsound
      hname hfree (fun hE => htitles hE window mem_cons_self) fun hE => ?_)) ?_
    · have hbytes := (hfits hE).2
      simp only [totalWeight, WindowSpec.weight, map_cons, sum_cons] at hbytes
      omega
    · rintro ⟨s', sid, wid, pid, evs⟩ g' ⟨hsound', t, hshown, hrestoring, w, hw, hlayout⟩
      exact ⟨sid, wid, t, hshown, hsound', hrestoring, rfl, ⟨_, rfl, rfl⟩, _, w, rfl, hw,
        by rw [hlayout]; rfl⟩
  have hstage : Ensures (stageOps ⟨g.state, [], []⟩ 0
      (templateOps env name dir window first more windows)) g (fun _ _ => E) fun staged' _ =>
      ∃ sid x t, g.state.sessions.get sid = none ∧
        (∀ k, k ≠ sid → staged'.snapshot.sessions.get k = g.state.sessions.get k) ∧
        staged'.snapshot.sessions.get sid = some x ∧
        x.name = name.getD (freeSessionName g.state) ∧
        (window.title ≠ [] → t = sanitizeTitle window.title) ∧
        List.Forall₂ (Made staged'.snapshot sid) (⟨t, firstSpec env dir window first,
          splitSpecs env (firstSpec env dir window first).cwd more⟩ ::
            windowSpecs env dir windows) x.windows := by
    refine .bind hstart ?_
    rintro staged₁ g₁ ⟨sid, wid, t, hshown, hstage₁⟩
    have hsame : ¬ E → t = sanitizeTitle window.title := fun hE =>
      hshown ((goodTitle_iff _).1 (htitles hE window mem_cons_self)).2.1
    have hsplits := stageOps_splits (E := E) g₁ env hstage₁ more rfl
      fun hE => (hfits hE).mono fun f => ?_
    · refine stageOps_append hsplits ?_
      rintro staged₂ g₂ ⟨last, hstage₂⟩
      rw [length_lowerSplits]
      have hwindows := stageOps_windows (E := E) g₂ env hstage₂ windows
        (fun hE next hmem => htitles hE next (mem_cons_of_mem _ hmem))
        (rfl : windowSpecs env dir windows = _) (fun hE => ?_) fun hE => ?_
      · refine hwindows.mono (fun _ _ h => h) ?_
        rintro staged₃ g₃ ⟨specs', wids', spec', wid', last', index, hspecs, hstage₃⟩
        obtain ⟨x, hx, hxname, hxwindows⟩ := hstage₃.restoring.session
        refine ⟨sid, x, t, hstage₃.restoring.fresh, hstage₃.restoring.others, hx, hxname, hshown,
          ?_⟩
        have hall := rel_append hstage₃.restoring.made (.cons hstage₃.restoring.last .nil)
        rw [hxwindows]
        simpa [hspecs, lastSpec] using hall
      · simpa [hsame hE] using hdistinct hE
      · simpa [totalWeight, WindowSpec.weight, lastSpec] using hfits hE
    · simp only [totalWeight, WindowSpec.weight, map_cons, map_nil, sum_cons, sum_nil, nil_append,
        lastSpec]
      omega
  have hne : (templateOps env name dir window first more windows).isEmpty = false := rfl
  generalize templateOps env name dir window first more windows = ops at hstage hne
  refine .guard (fun hempty => ?_) fun _ => ?_
  · rw [hne] at hempty
    cases hempty
  refine .bind_ok (exec_current g) ?_
  refine .bind hstage ?_
  intro staged g₁ hdone
  exact hdone

end Staging

end Shux.Persist
