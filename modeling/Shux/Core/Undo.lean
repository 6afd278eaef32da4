/-
# Undoing a split or a new window

A pane is split, or a window made, before its program is started. If the program does not
start, what was made is taken back. Splitting moved the focus and took a zoom away, so what
they were is noted when the split is made and put back with it. In between other clients go on
working, and what they did meanwhile has to stay: the note is compared with what is there now,
and only what is still as the split left it is put back.
-/

import Shux.Core.Focus

namespace Shux

open Proc SessionGraph List FinMap

section Undo

variable {R : Type} [Host] [F32 R]

/-- What a split changes in its window that undoing it must put back. -/
structure SplitUndo where
  window : WindowId
  activePane : PaneId
  zoomedPane : Option PaneId

omit [Host] [F32 R] in
/-- Read the window of a pane before it is split. -/
def SplitUndo.capture (snap : SessionGraphSnapshot R) (pane : PaneId) : Option SplitUndo := do
  let p ← snap.panes.get pane
  let w ← snap.windows.get p.windowId
  return ⟨p.windowId, w.activePane, Shux.zoomedPane w.layout⟩

/-- A window whose program is not started yet, with what undoing it must put back. -/
structure NewWindow where
  session : SessionId
  window : WindowId
  pane : PaneId
  priorFocus : Option WindowId

namespace SessionGraph

omit [Host] [F32 R] in
/-- Run an operation, whatever comes of it. -/
def ignoring {α : Type} (op : GraphM R GraphError α) : GraphM R GraphError Unit :=
  tryCatch (do let _ ← op; return ()) fun _ => return ()

/-- Split a pane, reading in the same step what undoing the split puts back. -/
def splitNotingUndo (pane : PaneId) (direction : Direction) (ratio : R) (command : List Str) :
    GraphM R GraphError (PaneId × Option SplitUndo) := do
  let prior := SplitUndo.capture (← current) pane
  let newPane ← splitPaneWithCommand pane direction ratio command
  return (newPane, prior)

/-- Destroy a pane whose program never started, and restore what was noted, unless the focus or
the zoom were changed meanwhile. -/
def undoSplit (newPane : PaneId) (prior : Option SplitUndo) : GraphM R GraphError Unit := do
  match prior with
  | none => ignoring (destroyPane newPane none)
  | some prior =>
    let window := (← current).windows.get prior.window
    let focusIsStillOurs := window.map (·.activePane) == some newPane
    -- Destroying any pane unzooms its window, so a zoom chosen meanwhile is read now.
    let operatorZoom := (window.bind fun w => zoomedPane w.layout).filter fun z => z ≠ newPane
    ignoring (destroyPaneAndEmptyParents newPane)
    match (← current).windows.get prior.window with
    | none => return ()
    | some now =>
      if focusIsStillOurs && now.activePane ≠ prior.activePane then
        ignoring (focusPane prior.activePane)
      let rezoom :=
        match operatorZoom with
        | some z => some (z, z)
        | none => prior.zoomedPane.map fun z => (z, prior.activePane)
      match rezoom with
      | some (z, focused) => ignoring (zoomPaneIfFocused z focused)
      | none => return ()

section

omit [F32 R]

/-- Make a window, noting the focus it takes. -/
def createIn (session : SessionId) (title : Option Str) (cwd : PathBuf) (command : List Str) :
    GraphM R GraphError NewWindow := do
  let snap ← current
  let title ←
    match title with
    | some title => pure title
    | none => snap.defaultWindowTitle session command cwd
  let priorFocus := (snap.sessions.get session).map (·.activeWindow)
  let window ← createWindowWithCommand session title cwd command
  let pane ← okOr (((← current).windows.get window).map (·.activePane)) (.windowNotFound window)
  return ⟨session, window, pane, priorFocus⟩

def createWindowNotingFocus (session : SessionId) (title : Option Str) (cwd : PathBuf)
    (command : List Str) : GraphM R GraphError NewWindow :=
  createIn session title cwd command

/-- Make a window unless the session has one of the name, which is then given instead. -/
def ensureWindowNotingFocus (session : SessionId) (name : Str) (cwd : PathBuf)
    (command : List Str) : GraphM R GraphError (Except WindowId NewWindow) := do
  match (← current).findWindowByName session name with
  | some w => return .error w.id
  | none => return .ok (← createIn session (some name) cwd command)

end

/-- Destroy the pane of a window whose program never started, then what that leaves empty. The
focus goes back only if it is still on that window. -/
def undoWindowCreate (created : NewWindow) : GraphM R GraphError Unit := do
  let focusIsStillOurs :=
    ((← current).sessions.get created.session).map (·.activeWindow) == some created.window
  ignoring (destroyPaneAndEmptyParents created.pane)
  match created.priorFocus, ((← current).sessions.get created.session).map (·.activeWindow) with
  | some prev, some now =>
    if focusIsStillOurs && now ≠ prev then
      ignoring (focusWindow prev none)
  | _, _ => return ()

end SessionGraph

section

omit [Host] [F32 R]

@[simp]
theorem exec_ignoring {α : Type} (op : GraphM R GraphError α) (g : SessionGraph R) :
    exec (ignoring op) g = (.ok (), (exec op g).2) := by
  simp only [ignoring, exec_tryCatch, exec_bind]
  obtain ⟨r, g'⟩ := exec op g
  cases r with
  | ok a => rfl
  | error e => rfl

variable {g : SessionGraph R}

theorem exec_findPaneWindow_none {id : PaneId} (h : g.state.panes.get id = none) :
    exec (findPaneWindow id : GraphM R GraphError _) g = (.error (.paneNotFound id), g) := by
  simp [findPaneWindow, h, okOr]

variable {p : Pane}

theorem exec_findPaneWindow_some {id : PaneId} (h : g.state.panes.get id = some p) :
    exec (findPaneWindow id : GraphM R GraphError _) g = (.ok (g.state, p.windowId), g) := by
  simp [findPaneWindow, h, okOr]

/-- Focusing a pane of a window that nothing is zoomed in. -/
theorem state_focusPane {id : PaneId} {w : Window R}
    (hp : g.state.panes.get id = some p) (hw : g.state.windows.get p.windowId = some w)
    (hzoom : w.layout.zoom = none) :
    (exec (focusPane id) g).2.state = g.state.relayout p.windowId w.layout id g.state.panes := by
  have hnone : zoomedPane w.layout = none := by rw [zoomedPane, hzoom, Option.map_none]
  simp [-bind_pure_comp, focusPane, exec_findPaneWindow_some hp, hw, okOr, hnone, fireUnzoomed,
    fire]

theorem exec_focusPane_none {id : PaneId}
    (h : g.state.panes.get id = none) : (exec (focusPane id) g).2 = g := by
  simp [focusPane, exec_findPaneWindow_none h]

theorem exec_zoomPaneIfFocused_none {id focused : PaneId}
    (h : g.state.panes.get id = none) : (exec (zoomPaneIfFocused id focused) g).2 = g := by
  simp [zoomPaneIfFocused, exec_findPaneWindow_none h]

/-- A pane that is not focused, or not alone to be zoomed, or hidden: nothing is zoomed. -/
theorem exec_zoomPaneIfFocused_refused {id focused : PaneId}
    {w : Window R} (hp : g.state.panes.get id = some p)
    (hw : g.state.windows.get p.windowId = some w)
    (h : w.activePane ≠ focused ∨ w.layout.zoom ≠ none ∨ w.layout.tree.paneCount ≤ 1) :
    (exec (zoomPaneIfFocused id focused) g).2 = g := by
  have hcond : (w.activePane ≠ focused ∨ w.layout.isZoomed = true) ∨
      w.layout.tree.paneCount ≤ 1 := by
    rw [WindowLayout.isZoomed, Option.isSome_iff_ne_none, or_assoc]
    exact h
  simp [zoomPaneIfFocused, exec_findPaneWindow_some hp, hw, okOr, hcond]

/-- Zooming the focused pane of a window that shows two panes or more. -/
theorem state_zoomPaneIfFocused {id : PaneId} {w : Window R}
    {tree : LayoutNode R} (hp : g.state.panes.get id = some p)
    (hw : g.state.windows.get p.windowId = some w) (hactive : w.activePane = id)
    (hlayout : w.layout = ⟨tree, none⟩) (hcount : 1 < tree.paneCount) (hmem : id ∈ tree.paneIds) :
    (exec (zoomPaneIfFocused id id) g).2.state =
      g.state.relayout p.windowId ⟨.leaf id, some ⟨tree, id⟩⟩ id
        (bumpPanes (windowPaneIds g.state.panes p.windowId) g.state.panes) := by
  have htoggle : w.layout.toggleZoom id = ⟨.leaf id, some ⟨tree, id⟩⟩ := by
    rw [hlayout, WindowLayout.toggleZoom, WindowLayout.zoomIn, if_pos]
    simpa [LayoutNode.containsPane_iff] using ⟨hmem, hcount⟩
  have hcond : ¬(w.layout.isZoomed = true ∨ w.layout.tree.paneCount ≤ 1) := by
    simp [WindowLayout.isZoomed, hlayout, hcount]
  have hwas : w.layout.zoom = none := by rw [hlayout]
  simp [-bind_pure_comp, zoomPaneIfFocused, zoomPane, exec_findPaneWindow_some hp, hw, okOr, hcond,
    hp, htoggle, checkVersion, hwas, zoomedPane, hactive, fireUnzoomed]

end

/-- What becomes of the graph when a pane goes with the parents it leaves empty: the pane alone,
or its window if it was the last there, or the session if that was its only window. -/
inductive Takes (s : SessionGraphSnapshot R) (id : PaneId) (s' : SessionGraphSnapshot R) : Prop
  | pane {evs : List EventData} (h : RemovesPane s id s' evs)
  | window {p : Pane} {evs : List EventData} (hpane : s.panes.get id = some p)
      (hlast : (s.panes.values.filter fun q => q.windowId = p.windowId).length ≤ 1)
      (h : RemovesWindow s p.windowId s' evs)
  | session {p : Pane} {w : Window R} {x : Session} {evs : List EventData}
      (hpane : s.panes.get id = some p)
      (hlast : (s.panes.values.filter fun q => q.windowId = p.windowId).length ≤ 1)
      (hwindow : s.windows.get p.windowId = some w)
      (hsession : s.sessions.get w.sessionId = some x) (honly : x.windows.length ≤ 1)
      (h : RemovesSession s w.sessionId s' evs)

/-- With no version asked for, only the last pane of a window is refused. -/
theorem destroyPane_taken {g : SessionGraph R} (hlinked : Linked g.state) {id : PaneId}
    {p : Pane} (hp : g.state.panes.get id = some p) :
    Ensures (destroyPane id none) g (fun e g' => e = .lastPane ∧ g' = g) fun _ _ => True := by
  obtain ⟨w, hw⟩ := hlinked.pane_window id p hp
  refine .bind_ok (exec_current g) ?_
  refine .okOr_some hp ?_
  refine .require_ok rfl ?_
  refine .guard (fun _ => ⟨rfl, rfl⟩) fun _ => ?_
  refine .okOr_some hw ?_
  exact .bind_ok (exec_listValues _ _) trivial

section

omit [F32 R]

theorem destroyWindow_taken {g : SessionGraph R} (hlinked : Linked g.state) {id : WindowId}
    {w : Window R} (hw : g.state.windows.get id = some w) :
    Ensures (destroyWindow id none) g
      (fun e g' => e = .lastWindow ∧ g' = g ∧
        ∃ x, g.state.sessions.get w.sessionId = some x ∧ x.windows.length ≤ 1)
      fun _ _ => True := by
  obtain ⟨x, hx, -⟩ := hlinked.window_listed id w hw
  refine .bind_ok (exec_current g) ?_
  refine .okOr_some hw ?_
  refine .require_ok rfl ?_
  refine .okOr_some hx ?_
  exact .guard (fun hfew => ⟨rfl, rfl, x, hx, hfew⟩) fun _ => trivial

theorem destroySession_taken {g : SessionGraph R} {id : SessionId} {x : Session}
    (hx : g.state.sessions.get id = some x) :
    Ensures (destroySession id none) g (fun _ _ => False) fun _ _ => True := by
  refine .bind_ok (exec_current g) ?_
  refine .okOr_some hx ?_
  exact .require_ok rfl trivial

end

/-- A pane that is there is always taken. -/
theorem destroyPaneAndEmptyParents_takes {g : SessionGraph R} (hlinked : Linked g.state)
    {id : PaneId} {p : Pane} (hp : g.state.panes.get id = some p) :
    Ensures (destroyPaneAndEmptyParents id) g (fun _ _ => False) fun _ g' =>
      Takes g.state id g'.state := by
  obtain ⟨w, hw⟩ := hlinked.pane_window id p hp
  have hlast : Ensures
      (tryCatch (do destroyPane id none; return true) fun e =>
        if e = .lastPane then return false else throw e : GraphM R GraphError Bool) g
      (fun _ _ => False)
      fun destroyed g' =>
        if destroyed then Takes g.state id g'.state
        else g' = g ∧
          (g.state.panes.values.filter fun q => q.windowId = p.windowId).length ≤ 1 := by
    refine Ensures.tryCatch
      (.bind ((destroyPane_spec g id none).and (destroyPane_taken hlinked hp)) ?_) ?_
    · rintro _ g' ⟨⟨_, s, evs, -, -, hcommitted, hremoves⟩, -⟩
      show Takes g.state id g'.state
      rw [hcommitted.state]
      exact .pane hremoves
    · rintro e g' ⟨⟨-, hfew⟩, rfl, rfl⟩
      refine .ite (fun _ => ⟨rfl, ?_⟩) fun hne => absurd rfl hne
      obtain ⟨pane, hpane, hfew⟩ := hfew rfl
      rw [hp] at hpane
      cases hpane
      exact hfew
  refine .bind hlast ?_
  intro destroyed g' houtcome
  cases destroyed with
  | true => exact houtcome
  | false =>
    obtain ⟨rfl, hfew⟩ := houtcome
    refine .bind_ok (exec_findPaneWindow_some hp) ?_
    have hsession : g'.state.sessionOf p.windowId = some w.sessionId := by
      rw [SessionGraphSnapshot.sessionOf, hw]
      rfl
    refine .okOr_some hsession ?_
    refine Ensures.tryCatch ((destroyWindow_spec _ p.windowId none).and
      (destroyWindow_taken hlinked hw) |>.mono (fun _ _ h => h) ?_) ?_
    · rintro _ g'' ⟨⟨_, s, evs, -, -, hcommitted, hremoves⟩, -⟩
      rw [hcommitted.state]
      exact .window hp hfew hremoves
    · rintro e g'' ⟨-, rfl, rfl, x, hx, honly⟩
      refine .ite (fun _ => ?_) fun hne => absurd rfl hne
      refine ((destroySession_spec _ w.sessionId none).and (destroySession_taken hx)).mono
        (fun _ _ h => h.2) ?_
      rintro _ g' ⟨⟨_, s, evs, -, -, hcommitted, hremoves⟩, -⟩
      rw [hcommitted.state]
      exact .session hp hfew hw hx honly hremoves

theorem exec_destroyPaneAndEmptyParents_none {g : SessionGraph R} {id : PaneId}
    (h : g.state.panes.get id = none) : (exec (destroyPaneAndEmptyParents id) g).2 = g := by
  simp [destroyPaneAndEmptyParents, destroyPane, h, okOr]

namespace Takes

variable {s s' : SessionGraphSnapshot R} {id : PaneId} {p : Pane}

section

omit [Host] [F32 R]

/-- The last pane of a window is the only one there. -/
theorem houses_last (hlinked : Linked s) (hp : s.panes.get id = some p)
    (hlast : (s.panes.values.filter fun q => q.windowId = p.windowId).length ≤ 1) {pid : PaneId}
    (h : Houses s p.windowId pid) : pid = id := by
  obtain ⟨q, hq, hhome⟩ := h
  have hmem : ∀ k r, s.panes.get k = some r → r.windowId = p.windowId →
      r ∈ s.panes.values.filter fun q => q.windowId = p.windowId := by
    intro k r hr hwin
    rw [mem_filter, mem_values_iff]
    exact ⟨⟨k, hr⟩, by simpa using hwin⟩
  have heq : q = p := by
    have hpmem := hmem id p hp rfl
    have hqmem := hmem pid q hq hhome
    match hl : s.panes.values.filter fun q => q.windowId = p.windowId with
    | [] =>
      rw [hl] at hpmem
      cases hpmem
    | [r] =>
      rw [hl, mem_singleton] at hpmem hqmem
      rw [hpmem, hqmem]
    | r :: r' :: rest =>
      rw [hl] at hlast
      simp at hlast
  rw [← hlinked.pane_id pid q hq, heq, hlinked.pane_id id p hp]

/-- The only window of a session is the whole list. -/
theorem windows_only {wid : WindowId} {x : Session} (hmem : wid ∈ x.windows)
    (honly : x.windows.length ≤ 1) : x.windows = [wid] := by
  match hl : x.windows with
  | [] =>
    rw [hl] at hmem
    cases hmem
  | [k] =>
    rw [hl, mem_singleton] at hmem
    rw [hmem]
  | k :: k' :: rest =>
    rw [hl] at honly
    simp at honly

end

variable (hlinked : Linked s) (hp : s.panes.get id = some p) (h : Takes s id s')
include hlinked hp h

section

omit [Host]

/-- When the window goes, nothing but the pane was in it. -/
theorem window_or_gone :
    (∃ evs, RemovesPane s id s' evs) ∨
      WindowsGone [p.windowId] s s' ∧ ∀ pid, Houses s p.windowId pid → pid = id := by
  cases h with
  | pane h => exact .inl ⟨_, h⟩
  | @window q evs hq hlast h =>
    rw [hp] at hq
    cases hq
    exact .inr ⟨hlinked.gone_of_removesWindow h, fun pid => houses_last hlinked hp hlast⟩
  | @session q w x evs hq hlast hwindow hsession honly h =>
    rw [hp] at hq
    cases hq
    obtain ⟨y, hy, hgone, -⟩ := hlinked.gone_of_removesSession h
    rw [hsession] at hy
    cases hy
    obtain ⟨y, hy, hmem⟩ := hlinked.window_listed p.windowId w hwindow
    rw [hsession] at hy
    cases hy
    rw [windows_only hmem honly] at hgone
    exact .inr ⟨hgone, fun pid => houses_last hlinked hp hlast⟩

/-- Exactly one pane is taken. -/
theorem get_panes (pid : PaneId) :
    s'.panes.get pid = if pid = id then none else s.panes.get pid := by
  rcases h.window_or_gone hlinked hp with ⟨evs, hremoves⟩ | ⟨hgone, honly⟩
  · cases hremoves with
    | intro => exact s.panes.get_remove id pid
  · apply Option.ext
    intro q
    rw [hgone.panes, mem_singleton]
    split_ifs with hpid
    · subst hpid
      constructor
      · rintro ⟨hq, hwin⟩
        rw [hp] at hq
        cases hq
        exact absurd rfl hwin
      · intro hq
        cases hq
    · constructor
      · exact And.left
      · intro hq
        exact ⟨hq, fun hwin => hpid (honly pid ⟨q, hq, hwin⟩)⟩

theorem houses_iff (wid : WindowId) (pid : PaneId) :
    Houses s' wid pid ↔ Houses s wid pid ∧ pid ≠ id := by
  unfold Houses
  rw [h.get_panes hlinked hp]
  by_cases hpid : pid = id
  · simp [hpid]
  · simp [hpid]

/-- No other window is touched. -/
theorem get_windows {wid : WindowId} (hne : wid ≠ p.windowId) :
    s'.windows.get wid = s.windows.get wid := by
  rcases h.window_or_gone hlinked hp with ⟨evs, hremoves⟩ | ⟨hgone, honly⟩
  · cases hremoves with
    | @intro q w listed active hq hmore hw hactive =>
      rw [hp] at hq
      cases hq
      show (s.windows.modify p.windowId _).get wid = _
      rw [get_modify, if_neg hne]
  · apply Option.ext
    intro w
    rw [hgone.windows, mem_singleton]
    exact ⟨And.left, fun hw => ⟨hw, hne⟩⟩

end

end Takes

omit [Host] [F32 R] in
/-- What a window shows and where its focus is. -/
def Shows (s : SessionGraphSnapshot R) (wid : WindowId) (layout : WindowLayout R)
    (active : PaneId) : Prop :=
  ∃ w, s.windows.get wid = some w ∧ w.layout = layout ∧ w.activePane = active

/-- Only one window may have changed, and no pane came or went. -/
structure Rearranges (wid : WindowId) (s s' : SessionGraphSnapshot R) : Prop where
  houses : ∀ k pid, Houses s' k pid ↔ Houses s k pid
  windows : ∀ k, k ≠ wid → s'.windows.get k = s.windows.get k

namespace Rearranges

omit [Host] [F32 R]

variable {wid : WindowId} {s s' s'' : SessionGraphSnapshot R}

theorem refl (wid : WindowId) (s : SessionGraphSnapshot R) : Rearranges wid s s :=
  ⟨fun _ _ => .rfl, fun _ _ => rfl⟩

theorem trans (h : Rearranges wid s s') (h' : Rearranges wid s' s'') : Rearranges wid s s'' where
  houses k pid := (h'.houses k pid).trans (h.houses k pid)
  windows k hk := (h'.windows k hk).trans (h.windows k hk)

theorem relayout (hlinked : Linked s) {layout : WindowLayout R} {active : PaneId} {moved : Prop}
    {panes : FinMap PaneId Pane} (hpanes : PanesBumped s wid moved panes) :
    Rearranges wid s (s.relayout wid layout active panes) where
  houses := hlinked.houses_relayout layout active hpanes
  windows k hk := by rw [SessionGraphSnapshot.relayout, get_modify, if_neg hk]

end Rearranges

section

omit [Host] [F32 R]

theorem shows_relayout {s : SessionGraphSnapshot R} {wid : WindowId} {w : Window R}
    (hw : s.windows.get wid = some w) (layout : WindowLayout R) (active : PaneId)
    (panes : FinMap PaneId Pane) :
    Shows (s.relayout wid layout active panes) wid layout active := by
  refine ⟨{ w with layout := layout, activePane := active, version := w.version + 1 }, ?_, rfl, rfl⟩
  rw [SessionGraphSnapshot.relayout, get_modify, if_pos rfl, hw]
  rfl

/-- Focusing a pane of an unzoomed window, if it is still there. -/
theorem refocus {g : SessionGraph R} {wid : WindowId} {layout : WindowLayout R}
    {active id : PaneId} (hlinked : Linked g.state) (hshows : Shows g.state wid layout active)
    (hzoom : layout.zoom = none) (hhome : ∀ k, Houses g.state k id → k = wid) :
    Rearranges wid g.state (exec (focusPane id) g).2.state ∧
      Shows (exec (focusPane id) g).2.state wid layout
        (if (g.state.panes.get id).isSome then id else active) := by
  cases hp : g.state.panes.get id with
  | none =>
    rw [exec_focusPane_none hp]
    exact ⟨.refl wid g.state, hshows⟩
  | some p =>
    obtain rfl := hhome p.windowId ⟨p, hp, rfl⟩
    obtain ⟨w, hw, rfl, rfl⟩ := hshows
    rw [state_focusPane hp hw hzoom]
    have hpanes : PanesBumped g.state p.windowId False g.state.panes := .inr (.inr ⟨rfl, not_false⟩)
    exact ⟨.relayout hlinked hpanes, shows_relayout hw _ _ _⟩

/-- The layout after an attempt to zoom the pane that should have the focus. -/
def WindowLayout.rezoom (layout : WindowLayout R) (active z : PaneId) : WindowLayout R :=
  if active = z ∧ layout.zoom = none ∧ 1 < layout.tree.paneCount then
    ⟨.leaf z, some ⟨layout.tree, z⟩⟩
  else layout

def WindowLayout.rezoomed (layout : WindowLayout R) (active : PaneId) :
    Option (PaneId × PaneId) → WindowLayout R
  | some (z, _) => layout.rezoom active z
  | none => layout

theorem zoomAgain {g : SessionGraph R} {wid : WindowId}
    {layout : WindowLayout R} {active z : PaneId}
    (hlinked : Linked g.state) (htiled : Tiled g.state) (hshows : Shows g.state wid layout active)
    (hhome : ∀ k, Houses g.state k z → k = wid) :
    Rearranges wid g.state (exec (zoomPaneIfFocused z z) g).2.state ∧
      Shows (exec (zoomPaneIfFocused z z) g).2.state wid (layout.rezoom active z) active := by
  obtain ⟨w, hw, rfl, rfl⟩ := hshows
  have hactive := (htiled wid w hw).active_pane
  unfold WindowLayout.rezoom
  split_ifs with hcond
  · obtain ⟨rfl, hzoom, hcount⟩ := hcond
    obtain ⟨p, hp, rfl⟩ := ((htiled wid w hw).leaves _).mp hactive
    have hlayout : w.layout = ⟨w.layout.tree, none⟩ := by
      cases hl : w.layout
      rw [hl] at hzoom
      cases hzoom
      rfl
    have hmem : w.activePane ∈ w.layout.tree.paneIds := by
      rwa [WindowLayout.full_of_unzoomed hzoom] at hactive
    rw [state_zoomPaneIfFocused hp hw rfl hlayout hcount hmem]
    have hpanes : PanesBumped g.state p.windowId False
        (bumpPanes (windowPaneIds g.state.panes p.windowId) g.state.panes) := .inl rfl
    exact ⟨.relayout hlinked hpanes, shows_relayout hw _ _ _⟩
  · have hsame : (exec (zoomPaneIfFocused z z) g).2 = g := by
      cases hp : g.state.panes.get z with
      | none => exact exec_zoomPaneIfFocused_none hp
      | some p =>
        obtain rfl := hhome p.windowId ⟨p, hp, rfl⟩
        refine exec_zoomPaneIfFocused_refused hp hw ?_
        by_contra hnot
        simp only [not_or, not_not, not_le] at hnot
        exact hcond hnot
    rw [hsame]
    exact ⟨.refl wid g.state, w, hw, rfl, rfl⟩

end

/-! ## Undoing a split -/

section Split

section

omit [Host] [F32 R]

/-- Whether the focus of the window is still on the new pane. -/
def SplitUndo.focusIsStillOurs (prior : SplitUndo) (s : SessionGraphSnapshot R)
    (newPane : PaneId) : Bool :=
  (s.windows.get prior.window).map (·.activePane) == some newPane

/-- The pane to zoom again, and the one that must have the focus for it. -/
def SplitUndo.rezoom (prior : SplitUndo) (s : SessionGraphSnapshot R) (newPane : PaneId) :
    Option (PaneId × PaneId) :=
  match ((s.windows.get prior.window).bind fun w => Shux.zoomedPane w.layout).filter
      fun z => z ≠ newPane with
  | some z => some (z, z)
  | none => prior.zoomedPane.map fun z => (z, prior.activePane)

/-- What is done once the new pane is destroyed. -/
def SplitUndo.restore (prior : SplitUndo) (ours : Bool) (again : Option (PaneId × PaneId))
    (g : SessionGraph R) : SessionGraph R :=
  match g.state.windows.get prior.window with
  | none => g
  | some now =>
    let g :=
      if ours && now.activePane ≠ prior.activePane then (exec (focusPane prior.activePane) g).2
      else g
    match again with
    | some (z, focused) => (exec (zoomPaneIfFocused z focused) g).2
    | none => g

theorem snd_zoomAgain (again : Option (PaneId × PaneId)) (g : SessionGraph R) :
    (exec (match again with
      | some (z, focused) => ignoring (zoomPaneIfFocused z focused)
      | none => pure ()) g).2 =
      match again with
      | some (z, focused) => (exec (zoomPaneIfFocused z focused) g).2
      | none => g := by
  cases again with
  | none => rfl
  | some pair => rw [exec_ignoring]

end

theorem snd_undoSplit (newPane : PaneId) (prior : SplitUndo) (g : SessionGraph R) :
    (exec (undoSplit newPane (some prior)) g).2 =
      prior.restore (prior.focusIsStillOurs g.state newPane) (prior.rezoom g.state newPane)
        (exec (destroyPaneAndEmptyParents newPane) g).2 := by
  simp only [undoSplit, exec_bind, exec_current, next_ok, exec_ignoring, SplitUndo.restore]
  generalize (exec (destroyPaneAndEmptyParents newPane) g).2 = g₁
  cases g₁.state.windows.get prior.window with
  | none => rfl
  | some now =>
    simp only [exec_bind, exec_ite, exec_ignoring, next_ok]
    rw [← snd_zoomAgain]
    by_cases hcond : (prior.focusIsStillOurs g.state newPane &&
        decide (now.activePane ≠ prior.activePane)) = true
    · rw [if_pos hcond]
      exact congrArg Prod.snd (if_pos hcond)
    · rw [if_neg hcond]
      exact congrArg Prod.snd (if_neg hcond)

variable {g : SessionGraph R} {newPane : PaneId} {prior : SplitUndo}

omit [Host] [F32 R] in
theorem snd_answer {α : Type} (reply : α → Reply) (op : GraphM R GraphError α)
    (g : SessionGraph R) : (exec (answer reply op) g).2 = (exec op g).2 := by
  simp only [answer, exec_bind, exec_mapError]
  cases (exec op g).1 with
  | ok a => rfl
  | error e => rfl

section Undoing

variable [LawfulF32 R]
variable {w : Window R}
variable {evs : List EventData}

theorem Orderly.focusPane (h : Orderly g) (id : PaneId) : Orderly (exec (focusPane id) g).2 := by
  rw [← snd_answer Reply.maybePane]
  exact h.run [.focusPane id] (by simp [GraphCommand.isBare])

theorem Orderly.destroyPaneAndEmptyParents (h : Orderly g) (id : PaneId) :
    Orderly (exec (destroyPaneAndEmptyParents id) g).2 := by
  rw [← snd_answer fun _ => Reply.done]
  exact h.run [.destroyPaneAndEmptyParents id] (by simp [GraphCommand.isBare])

/-- What the window looks like when it is still there after the new pane was destroyed. -/
theorem SplitUndo.restore_spec (ours : Bool) (again : Option (PaneId × PaneId))
    {layout : WindowLayout R} {active : PaneId} (h : Orderly g)
    (hshows : Shows g.state prior.window layout active)
    (hunzoomed : ours = true → layout.zoom = none)
    (hactive : ∀ k, Houses g.state k prior.activePane → k = prior.window)
    (hagain : ∀ z focused, again = some (z, focused) →
      focused = z ∧ ∀ k, Houses g.state k z → k = prior.window) :
    let refocused :=
      if ours = true ∧ (g.state.panes.get prior.activePane).isSome then prior.activePane else active
    Rearranges prior.window g.state (prior.restore ours again g).state ∧
      Shows (prior.restore ours again g).state prior.window
        (layout.rezoomed refocused again) refocused := by
  intro refocused
  obtain ⟨w, hw, hlayout, hactive₀⟩ := hshows
  have hstep : ∃ g₁ : SessionGraph R, Orderly g₁ ∧ Rearranges prior.window g.state g₁.state ∧
      Shows g₁.state prior.window layout refocused ∧
      (if ours && w.activePane ≠ prior.activePane then (exec (focusPane prior.activePane) g).2
        else g) = g₁ := by
    split_ifs with hcond
    · rw [Bool.and_eq_true, decide_eq_true_eq] at hcond
      obtain ⟨hmoved, hfocused⟩ := refocus h.linked ⟨w, hw, hlayout, hactive₀⟩
        (hunzoomed hcond.1) hactive
      refine ⟨_, h.focusPane _, hmoved, ?_, rfl⟩
      simp only [refocused, hcond.1, true_and]
      exact hfocused
    · refine ⟨g, h, .refl _ _, ⟨w, hw, hlayout, ?_⟩, rfl⟩
      rw [Bool.and_eq_true, decide_eq_true_eq] at hcond
      simp only [refocused]
      split_ifs with hours
      · by_contra hne
        exact hcond ⟨hours.1, hne⟩
      · exact hactive₀
  obtain ⟨g₁, h₁, hmoved, hshows₁, hg₁⟩ := hstep
  simp only [SplitUndo.restore, hw, hg₁]
  cases again with
  | none => exact ⟨hmoved, hshows₁⟩
  | some pair =>
    obtain ⟨z, focused⟩ := pair
    obtain ⟨rfl, hhome⟩ := hagain z focused rfl
    obtain ⟨hmoved₂, hshows₂⟩ := zoomAgain h₁.linked h₁.tiled hshows₁
      fun k hk => hhome k ((hmoved.houses k focused).mp hk)
    exact ⟨hmoved.trans hmoved₂, hshows₂⟩

/-- What must hold after a split was undone, next to the graph just before. -/
structure SplitUndone (s s' : SessionGraphSnapshot R) (newPane : PaneId) (wid : WindowId) :
    Prop where
  gone : s'.panes.get newPane = none
  kept : ∀ pid, pid ≠ newPane → ∀ k, Houses s' k pid ↔ Houses s k pid
  elsewhere : ∀ k, k ≠ wid → s'.windows.get k = s.windows.get k
  focus : ∀ w, s.windows.get wid = some w → w.activePane ≠ newPane →
    ∃ w', s'.windows.get wid = some w' ∧ w'.activePane = w.activePane
  zoom : ∀ w z, s.windows.get wid = some w → zoomedPane w.layout = some z → z ≠ newPane →
    (∃ a b, a ≠ b ∧ Houses s' wid a ∧ Houses s' wid b) →
      ∃ w', s'.windows.get wid = some w' ∧ zoomedPane w'.layout = some z

/-- A note that is about the window of the new pane. -/
structure SplitUndo.Fits (prior : SplitUndo) (s : SessionGraphSnapshot R) (newPane : PaneId) :
    Prop where
  newPane : ∀ k, Houses s k newPane → k = prior.window
  activePane : ∀ k, Houses s k prior.activePane → k = prior.window
  zoomedPane : ∀ z, prior.zoomedPane = some z → z = prior.activePane

section

omit [Host] [F32 R]

theorem not_houses_iff {s : SessionGraphSnapshot R} {pid : PaneId} :
    s.panes.get pid = none ↔ ∀ k, ¬Houses s k pid := by
  constructor
  · rintro hnone k ⟨p, hp, -⟩
    rw [hnone] at hp
    cases hp
  · intro h
    cases hp : s.panes.get pid with
    | none => rfl
    | some p => exact absurd ⟨p, hp, rfl⟩ (h p.windowId)

theorem WindowTiled.houses_zoomed {s : SessionGraphSnapshot R} {wid : WindowId}
    (h : WindowTiled s wid w) {z : PaneId} (hz : zoomedPane w.layout = some z) :
    Houses s wid z := by
  obtain ⟨zoom, hzoom, rfl⟩ := Option.map_eq_some_iff.mp hz
  exact (h.leaves _).mp (h.layout.shown zoom hzoom).2

end

omit [LawfulF32 R] in
/-- The pane to zoom again has the focus to expect and lives in the window. -/
theorem SplitUndo.Fits.rezoom (h : Orderly g) (hfits : prior.Fits g.state newPane) {z f : PaneId}
    (hagain : prior.rezoom g.state newPane = some (z, f)) :
    f = z ∧ ∀ k, Houses g.state k z → k = prior.window := by
  unfold SplitUndo.rezoom at hagain
  split at hagain
  · rename_i z' hoperator
    cases hagain
    refine ⟨rfl, fun k hk => ?_⟩
    obtain ⟨w, hw, hz⟩ := Option.bind_eq_some_iff.mp (Option.filter_eq_some_iff.mp hoperator).1
    obtain ⟨p, hp, rfl⟩ := hk
    obtain ⟨q, hq, hhome⟩ := (h.tiled _ w hw).houses_zoomed hz
    rw [hp] at hq
    cases hq
    exact hhome
  · obtain ⟨z', hz', heq⟩ := Option.map_eq_some_iff.mp hagain
    cases heq
    obtain rfl := hfits.zoomedPane z hz'
    exact ⟨rfl, hfits.activePane⟩

section

omit [Host] [F32 R]

/-- A zoom on another pane is the one to put back. -/
theorem SplitUndo.rezoom_operator {s : SessionGraphSnapshot R} {z : PaneId}
    (hw : s.windows.get prior.window = some w) (hz : Shux.zoomedPane w.layout = some z)
    (hne : z ≠ newPane) : prior.rezoom s newPane = some (z, z) := by
  have hfilter : ((s.windows.get prior.window).bind fun w => Shux.zoomedPane w.layout).filter
      (fun z => z ≠ newPane) = some z := by
    rw [hw, Option.bind_some, hz, Option.filter_some, if_pos (by simpa using hne)]
  simp only [SplitUndo.rezoom, hfilter]

theorem SplitUndo.focusIsStillOurs_iff {s : SessionGraphSnapshot R}
    (hw : s.windows.get prior.window = some w) :
    prior.focusIsStillOurs s newPane = true ↔ w.activePane = newPane := by
  simp [SplitUndo.focusIsStillOurs, hw]

theorem SplitUndo.restore_none {ours : Bool} {again : Option (PaneId × PaneId)}
    (h : g.state.windows.get prior.window = none) : prior.restore ours again g = g := by
  simp only [SplitUndo.restore, h]

end

/-- The new pane was killed meanwhile: only the zoom that was noted may come back. -/
theorem undone_of_killed (h : Orderly g) (hfits : prior.Fits g.state newPane)
    (hnone : g.state.panes.get newPane = none) :
    SplitUndone g.state (exec (undoSplit newPane (some prior)) g).2.state newPane prior.window := by
  rw [snd_undoSplit, exec_destroyPaneAndEmptyParents_none hnone]
  cases hw : g.state.windows.get prior.window with
  | none =>
    rw [SplitUndo.restore_none hw]
    refine ⟨hnone, fun _ _ _ => .rfl, fun _ _ => rfl, fun w hw' => ?_, fun w z hw' => ?_⟩
    · rw [hw] at hw'
      cases hw'
    · rw [hw] at hw'
      cases hw'
  | some w =>
    have htiled := h.tiled _ w hw
    have hours : prior.focusIsStillOurs g.state newPane = false := by
      rw [Bool.eq_false_iff, Ne, SplitUndo.focusIsStillOurs_iff hw]
      rintro rfl
      exact not_houses_iff.mp hnone _ ((htiled.leaves _).mp htiled.active_pane)
    obtain ⟨hmoved, w', hw', hlayout, hactive⟩ :=
      SplitUndo.restore_spec (prior.focusIsStillOurs g.state newPane) _ h ⟨w, hw, rfl, rfl⟩
        (by simp [hours]) hfits.activePane fun z f => hfits.rezoom h
    rw [hours] at hmoved hw' hactive hlayout ⊢
    simp only [Bool.false_eq_true, false_and, if_false] at hlayout hactive
    refine ⟨?_, fun pid _ k => hmoved.houses k pid, hmoved.windows, fun w₀ hw₀ _ => ?_, ?_⟩
    · rw [not_houses_iff] at hnone ⊢
      exact fun k hk => hnone k ((hmoved.houses k newPane).mp hk)
    · rw [hw] at hw₀
      cases hw₀
      exact ⟨w', hw', hactive⟩
    · intro w₀ z hw₀ hz hne _
      rw [hw] at hw₀
      cases hw₀
      refine ⟨w', hw', ?_⟩
      rw [SplitUndo.rezoom_operator hw hz hne, WindowLayout.rezoomed] at hlayout
      have hzoom : w.layout.zoom ≠ none := by
        intro hzoom
        rw [zoomedPane, hzoom] at hz
        cases hz
      rw [hlayout, WindowLayout.rezoom, if_neg fun hcond => hzoom hcond.2.1]
      exact hz

variable {p : Pane}

omit [LawfulF32 R] in
/-- What the window shows once the new pane is removed from it. -/
theorem shows_of_removesPane (h : Orderly g) (hp : g.state.panes.get newPane = some p)
    {s' : SessionGraphSnapshot R}
    (hremoves : RemovesPane g.state newPane s' evs) :
    ∃ w tree active, g.state.windows.get p.windowId = some w ∧
      w.layout.full.removePane newPane = some tree ∧ Shows s' p.windowId ⟨tree, none⟩ active ∧
      (w.activePane ≠ newPane → active = w.activePane) ∧
      ∃ other, other ≠ newPane ∧ Houses g.state p.windowId other := by
  cases hremoves with
  | @intro q w listed active hq hmore hw hactive =>
    rw [hp] at hq
    cases hq
    have htiled := h.tiled _ w hw
    have hmem : newPane ∈ w.layout.full.paneIds := (htiled.leaves _).mpr ⟨p, hp, rfl⟩
    have hlen : 1 < w.layout.full.paneIds.length := by
      rw [(h.tiled.perm_windowPaneIds h.linked hw).length_eq, windowPaneIds, length_map]
      exact hmore
    obtain ⟨tree, htree, hids⟩ := w.layout.full.paneIds_removePane htiled.layout.nodup hmem hlen
    have hlayout : (w.layout.removePane newPane).1 = ⟨tree, none⟩ := by
      rw [WindowLayout.removePane_fst, htree, Option.getD_some]
    refine ⟨w, tree, active, hw, htree, ?_, fun hne => ?_, ?_⟩
    · rw [hlayout]
      exact shows_relayout hw _ _ _
    · rw [hactive, if_neg hne]
    · obtain ⟨other, hother⟩ := exists_mem_of_ne_nil _ tree.paneIds_ne_nil
      rw [hids, htiled.layout.nodup.mem_erase_iff] at hother
      exact ⟨other, hother.1, (htiled.leaves other).mp hother.2⟩

/-- The window that is left when the new pane is removed from it. -/
theorem undone_of_removed (h : Orderly g) (hfits : prior.Fits g.state newPane)
    (hp : g.state.panes.get newPane = some p)
    (hremoves : RemovesPane g.state newPane
      (exec (destroyPaneAndEmptyParents newPane) g).2.state evs) :
    ∃ w tree active, g.state.windows.get prior.window = some w ∧
      w.layout.full.removePane newPane = some tree ∧
      (w.activePane ≠ newPane → active = w.activePane) ∧
      let g₁ := (exec (destroyPaneAndEmptyParents newPane) g).2
      let g₂ := (exec (undoSplit newPane (some prior)) g).2
      let refocused :=
        if w.activePane = newPane ∧ (g₁.state.panes.get prior.activePane).isSome then
          prior.activePane
        else active
      Shows g₁.state prior.window ⟨tree, none⟩ active ∧
      Rearranges prior.window g₁.state g₂.state ∧
        Shows g₂.state prior.window
          (WindowLayout.rezoomed ⟨tree, none⟩ refocused (prior.rezoom g.state newPane))
          refocused := by
  obtain ⟨w, tree, active, hw, htree, hshows, hactive, -⟩ := shows_of_removesPane h hp hremoves
  obtain hhome : p.windowId = prior.window := hfits.newPane _ ⟨p, hp, rfl⟩
  rw [hhome] at hw hshows
  have htakes : Takes g.state newPane (exec (destroyPaneAndEmptyParents newPane) g).2.state :=
    .pane hremoves
  have hhouses := htakes.houses_iff h.linked hp
  obtain ⟨hmoved, hfinal⟩ := SplitUndo.restore_spec (prior.focusIsStillOurs g.state newPane)
    (prior.rezoom g.state newPane) (h.destroyPaneAndEmptyParents newPane) hshows (fun _ => rfl)
    (fun k hk => hfits.activePane k ((hhouses k _).mp hk).1)
    fun z f hagain => ⟨(hfits.rezoom h hagain).1,
      fun k hk => (hfits.rezoom h hagain).2 k ((hhouses k z).mp hk).1⟩
  simp only [SplitUndo.focusIsStillOurs_iff hw] at hfinal
  rw [← snd_undoSplit] at hmoved hfinal
  exact ⟨w, tree, active, hw, htree, hactive, hshows, hmoved, hfinal⟩

omit [LawfulF32 R] in
theorem takes_of_destroy (hlinked : Linked g.state) (hp : g.state.panes.get newPane = some p) :
    Takes g.state newPane (exec (destroyPaneAndEmptyParents newPane) g).2.state :=
  Ensures.snd ((destroyPaneAndEmptyParents_takes hlinked hp).mono (fun _ _ h => h.elim)
    fun _ _ h => h)

omit [Host] [F32 R] in
theorem one_lt_paneCount {t : LayoutNode R} {a b : PaneId} (hne : a ≠ b) (ha : a ∈ t.paneIds)
    (hb : b ∈ t.paneIds) : 1 < t.paneCount := by
  rw [LayoutNode.paneCount_eq_length]
  by_contra hle
  match hids : t.paneIds with
  | [] =>
    rw [hids] at ha
    cases ha
  | [k] =>
    rw [hids, mem_singleton] at ha hb
    exact hne (ha.trans hb.symm)
  | k :: k' :: rest =>
    rw [hids] at hle
    simp at hle

/-- Other panes are left in the window. -/
theorem undone_of_left (h : Orderly g) (hfits : prior.Fits g.state newPane)
    (hp : g.state.panes.get newPane = some p)
    (hremoves : RemovesPane g.state newPane
      (exec (destroyPaneAndEmptyParents newPane) g).2.state evs) :
    SplitUndone g.state (exec (undoSplit newPane (some prior)) g).2.state newPane prior.window := by
  have htakes : Takes g.state newPane (exec (destroyPaneAndEmptyParents newPane) g).2.state :=
    .pane hremoves
  have hhouses := htakes.houses_iff h.linked hp
  have hhome : p.windowId = prior.window := hfits.newPane _ ⟨p, hp, rfl⟩
  obtain ⟨w, tree, active, hw, htree, hactive, hshows, hmoved, w', hw', hlayout, hfocus⟩ :=
    undone_of_removed h hfits hp hremoves
  refine ⟨?_, fun pid hne k => ?_, fun k hk => ?_, fun w₀ hw₀ hne => ?_, ?_⟩
  · rw [not_houses_iff]
    intro k hk
    exact ((hhouses k newPane).mp ((hmoved.houses k newPane).mp hk)).2 rfl
  · rw [hmoved.houses, hhouses]
    simp [hne]
  · rw [hmoved.windows k hk, htakes.get_windows h.linked hp (hhome ▸ hk)]
  · rw [hw] at hw₀
    cases hw₀
    refine ⟨w', hw', ?_⟩
    rw [hfocus, if_neg fun hcond => hne hcond.1, hactive hne]
  · rintro w₀ z hw₀ hz hne ⟨a, b, hab, ha, hb⟩
    rw [hw] at hw₀
    cases hw₀
    have hz' : w.activePane = z := (h.focus _ w hw).active z hz
    rw [SplitUndo.rezoom_operator hw hz hne, if_neg fun hcond => hne (hz'.symm.trans hcond.1),
      hactive fun hcond => hne (hz'.symm.trans hcond), hz', WindowLayout.rezoomed] at hlayout
    -- The two panes that are left are leaves of the tree without the new pane.
    obtain ⟨w₁, hw₁, hlayout₁, -⟩ := hshows
    have hleaf : ∀ pid, Houses (exec (undoSplit newPane (some prior)) g).2.state prior.window pid →
        pid ∈ tree.paneIds := by
      intro pid hpid
      have hmem := (((h.destroyPaneAndEmptyParents newPane).tiled _ w₁ hw₁).leaves pid).mpr
        ((hmoved.houses _ pid).mp hpid)
      rwa [hlayout₁, WindowLayout.full_of_unzoomed rfl] at hmem
    have hcount := one_lt_paneCount hab (hleaf a ha) (hleaf b hb)
    rw [WindowLayout.rezoom, if_pos ⟨rfl, rfl, hcount⟩] at hlayout
    exact ⟨w', hw', by rw [hlayout]; rfl⟩

omit [LawfulF32 R] in
/-- The new pane was alone: its window goes with it. -/
theorem undone_of_alone (h : Orderly g) (hfits : prior.Fits g.state newPane)
    (hp : g.state.panes.get newPane = some p)
    (hgone : WindowsGone [p.windowId] g.state (exec (destroyPaneAndEmptyParents newPane) g).2.state)
    (honly : ∀ pid, Houses g.state p.windowId pid → pid = newPane) :
    SplitUndone g.state (exec (undoSplit newPane (some prior)) g).2.state newPane prior.window := by
  have htakes := takes_of_destroy h.linked hp
  obtain hhome : p.windowId = prior.window := hfits.newPane _ ⟨p, hp, rfl⟩
  have hnone : (exec (destroyPaneAndEmptyParents newPane) g).2.state.windows.get
      prior.window = none := by
    apply Option.eq_none_iff_forall_ne_some.mpr
    intro w hw
    exact ((hgone.windows _ w).mp hw).2 (by simp [hhome])
  have hall : ∀ {w pid}, g.state.windows.get prior.window = some w →
      pid ∈ w.layout.full.paneIds → pid = newPane := by
    intro w pid hw hmem
    exact honly pid (hhome ▸ (((h.tiled _ w hw).leaves pid).mp hmem))
  rw [snd_undoSplit, SplitUndo.restore_none hnone]
  refine ⟨?_, fun pid hne k => ?_, fun k hk => ?_, fun w hw hne => ?_, ?_⟩
  · rw [htakes.get_panes h.linked hp, if_pos rfl]
  · rw [htakes.houses_iff h.linked hp]
    simp [hne]
  · exact htakes.get_windows h.linked hp (hhome ▸ hk)
  · exact absurd (hall hw (h.tiled _ w hw).active_pane) hne
  · intro w z hw hz hne _
    have hmem := ((h.tiled _ w hw).leaves z).mpr ((h.tiled _ w hw).houses_zoomed hz)
    exact absurd (hall hw hmem) hne

/-- Whatever happened since the split, undoing it takes the new pane and nothing else. -/
theorem undone (h : Orderly g) (hfits : prior.Fits g.state newPane) :
    SplitUndone g.state (exec (undoSplit newPane (some prior)) g).2.state newPane prior.window := by
  cases hp : g.state.panes.get newPane with
  | none => exact undone_of_killed h hfits hp
  | some p =>
    rcases (takes_of_destroy h.linked hp).window_or_gone h.linked hp with
      ⟨evs, hremoves⟩ | ⟨hgone, honly⟩
    · exact undone_of_left h hfits hp hremoves
    · exact undone_of_alone h hfits hp hgone honly

/-- What a split that is noted does. -/
structure SplitNoted (g g' : SessionGraph R) (newPane : PaneId) (prior : SplitUndo)
    (w : Window R) : Prop where
  window : g.state.windows.get prior.window = some w
  active : prior.activePane = w.activePane
  zoomed : prior.zoomedPane = zoomedPane w.layout
  fresh : Fresh g.drawn g'.drawn newPane.uuid
  home : Houses g'.state prior.window newPane
  split : ∃ target direction ratio tree,
    w.layout.full.splitPane target newPane direction ratio = some tree ∧
      Shows g'.state prior.window ⟨tree, none⟩ newPane
  moves : Moves {k | k ≠ .addPane} g g'

section

omit [LawfulF32 R]

/-- The pane a split returns, and the graph it leaves. -/
theorem splitPane_exact (g : SessionGraph R) (target : PaneId) (direction : Direction) (ratio : R)
    (command : List Str) :
    Ensures (splitPaneWithCommand target direction ratio command) g (fun _ _ => True)
      fun newPane g' => newPane = ⟨Host.newV4 g.drawn⟩ ∧ g'.drawn = g.drawn + 1 ∧
        ∃ pane w tree, g.state.panes.get target = some pane ∧
          g.state.windows.get pane.windowId = some w ∧
          w.layout.full.splitPane target newPane direction ratio = some tree ∧
          g'.state = g.state.relayout pane.windowId ⟨tree, none⟩ newPane
            (g.state.panes.insert newPane
              (.withCommand newPane pane.windowId pane.cwd command)) := by
  refine findPaneWindow_bind (fun _ => trivial) fun pane hpane => ?_
  refine .okOr_bind (fun _ => trivial) fun target' hagain => ?_
  cases hpane.symm.trans hagain
  refine .okOr_bind (fun _ => trivial) fun window hwindow => ?_
  refine .require_bind (fun _ _ => trivial) fun _ _ => ?_
  refine .bind_ok (exec_newPane _ _ _ _) ?_
  refine .guard (fun _ => trivial) fun hok => ?_
  rw [Bool.not_eq_true', Bool.not_eq_false] at hok
  obtain ⟨tree, htree, hlayout⟩ := WindowLayout.splitPane_ok hok
  refine ⟨rfl, rfl, pane, window, tree, hpane, hwindow, htree, ?_⟩
  rw [← hlayout]
  rfl

theorem splitPane_noted (g : SessionGraph R) (target : PaneId) (direction : Direction) (ratio : R)
    (command : List Str) :
    Ensures (splitNotingUndo target direction ratio command) g (fun _ _ => True) fun r g' =>
      ∃ p prior w, g.state.panes.get target = some p ∧ r.2 = some prior ∧
        prior.window = p.windowId ∧ SplitNoted g g' r.1 prior w := by
  refine .bind_ok (exec_current g) ?_
  refine .bind ((splitPane_exact g target direction ratio command).and
    ((splitPane_spec g target direction ratio command).mono (fun _ _ _ => trivial)
      fun _ _ h => h) |>.mono (fun _ _ _ => trivial) fun _ _ h => h) ?_
  rintro newPane g' ⟨⟨rfl, hdrawn, pane, w, tree, hpane, hw, htree, hstate⟩,
    s, evs, hcommitted, hsplits⟩
  refine ⟨pane, ⟨pane.windowId, w.activePane, zoomedPane w.layout⟩, w, hpane, ?_, rfl, hw, rfl, rfl,
    ?_, ?_, ?_, ?_⟩
  · simp [SplitUndo.capture, hpane, hw]
  · exact ⟨g.drawn, le_rfl, by omega, rfl⟩
  · rw [hstate]
    exact ⟨_, get_insert_self _ _ _, rfl⟩
  · refine ⟨target, direction, ratio, tree, htree, ?_⟩
    rw [hstate]
    exact shows_relayout hw _ _ _
  · exact .of_effect hcommitted (.splitPane (by simp) hsplits)

theorem Moves.houses_old {kinds : Set Kind} {g g' : SessionGraph R}
    (hsound : Sound g.drawn g.state) (h : Moves kinds g g') {pid : PaneId} {wid : WindowId}
    (hin : Houses g.state wid pid) (k : WindowId) (hk : Houses g'.state k pid) : k = wid := by
  obtain ⟨n, evs, hadvances⟩ := h
  obtain ⟨p, hp, rfl⟩ := hin
  obtain ⟨p', hp', rfl⟩ := hk
  obtain ⟨q, hq, hlater⟩ := (hadvances.trace.aged hsound).old_pane (hsound.drawn.pane pid p hp) hp'
  rw [hp] at hq
  cases hq
  exact hlater.windowId

end

theorem SplitNoted.orderly {g g₁ : SessionGraph R} (h : Orderly g)
    (hnoted : SplitNoted g g₁ newPane prior w) : Orderly g₁ :=
  h.moves hnoted.moves fun hmem => hmem rfl

/-- The note still fits after whatever was done to the graph. -/
theorem SplitNoted.fits {g g₁ g₂ : SessionGraph R} (h : Orderly g)
    (hnoted : SplitNoted g g₁ newPane prior w) {kinds : Set Kind} (hmoves : Moves kinds g₁ g₂) :
    prior.Fits g₂.state newPane where
  newPane := hmoves.houses_old (hnoted.orderly h).sound hnoted.home
  activePane k hk := by
    have htiled := h.tiled _ w hnoted.window
    have hin : Houses g.state prior.window prior.activePane := by
      rw [hnoted.active]
      exact (htiled.leaves _).mp htiled.active_pane
    have hall : Moves (kinds ∪ {k | k ≠ .addPane}) g g₂ :=
      (hnoted.moves.mono Set.subset_union_right).trans (hmoves.mono Set.subset_union_left)
    exact hall.houses_old h.sound hin k hk
  zoomedPane z hz := by
    rw [hnoted.zoomed] at hz
    rw [hnoted.active, (h.focus _ w hnoted.window).active z hz]

omit [Host] [F32 R] [LawfulF32 R] in
/-- The zoom that was noted, put back over the whole tree, gives the layout back. -/
theorem rezoomed_noted (hlayout : w.layout.WellFormed) (hfocus : ZoomShows w) :
    WindowLayout.rezoomed ⟨w.layout.full, none⟩ w.activePane
      ((zoomedPane w.layout).map fun z => (z, w.activePane)) = w.layout := by
  cases hzoom : w.layout.zoom with
  | none =>
    rw [zoomedPane, hzoom, Option.map_none, Option.map_none, WindowLayout.rezoomed,
      WindowLayout.full_of_unzoomed hzoom, ← hzoom]
  | some zoom =>
    have hzoomed : zoomedPane w.layout = some zoom.zoomedPane := by
      rw [zoomedPane, hzoom]
      rfl
    rw [hzoomed, Option.map_some, WindowLayout.rezoomed, WindowLayout.rezoom,
      if_pos ⟨hfocus.active _ hzoomed, rfl, hfocus.hides (by rw [hzoomed]; rfl)⟩,
      WindowLayout.full_of_zoom hzoom, ← (hlayout.shown zoom hzoom).1, ← hzoom]

/-- With nothing in between, the window is as it was before the split. -/
theorem SplitNoted.restored {g g₁ : SessionGraph R} (h : Orderly g)
    (hnoted : SplitNoted g g₁ newPane prior w) :
    Shows (exec (undoSplit newPane (some prior)) g₁).2.state prior.window w.layout
      w.activePane := by
  have h₁ := hnoted.orderly h
  have hfits := hnoted.fits h (.of_quiet (.refl g₁) : Moves ∅ g₁ g₁)
  obtain ⟨target, direction, ratio, tree, htree, w₁, hw₁, hlayout₁, hactive₁⟩ := hnoted.split
  obtain ⟨p, hp, hhome⟩ := hnoted.home
  have htiled := h.tiled _ w hnoted.window
  have hnew : newPane ∉ w.layout.full.paneIds := by
    intro hmem
    obtain ⟨q, hq, -⟩ := (htiled.leaves _).mp hmem
    rw [h.sound.drawn.get_pane hnoted.fresh] at hq
    cases hq
  have hstays : prior.activePane ≠ newPane := by
    rw [hnoted.active]
    exact fun heq => hnew (heq ▸ htiled.active_pane)
  have hthere : Houses g₁.state prior.window prior.activePane := by
    rw [← (h₁.tiled _ w₁ hw₁).leaves, hlayout₁, WindowLayout.full_of_unzoomed rfl,
      (LayoutNode.paneIds_splitPane htree).mem_iff, hnoted.active]
    exact mem_cons_of_mem _ htiled.active_pane
  have htakes := takes_of_destroy h₁.linked hp
  rcases htakes.window_or_gone h₁.linked hp with ⟨evs, hremoves⟩ | ⟨-, honly⟩
  · obtain ⟨w₁', tree', active, hw₁', htree', -, -, -, hshows⟩ :=
      undone_of_removed h₁ hfits hp hremoves
    rw [hw₁] at hw₁'
    cases hw₁'
    rw [hlayout₁, WindowLayout.full_of_unzoomed rfl,
      LayoutNode.removePane_splitPane (h.settled _ w hnoted.window) hnew htree] at htree'
    cases htree'
    have hkept : ((exec (destroyPaneAndEmptyParents newPane) g₁).2.state.panes.get
        prior.activePane).isSome := by
      obtain ⟨q, hq, -⟩ := hthere
      rw [htakes.get_panes h₁.linked hp, if_neg hstays, hq]
      rfl
    have hagain : prior.rezoom g₁.state newPane =
        (zoomedPane w.layout).map fun z => (z, prior.activePane) := by
      have hnone : zoomedPane w₁.layout = none := by rw [hlayout₁]; rfl
      simp [SplitUndo.rezoom, hw₁, hnone, hnoted.zoomed]
    rw [if_pos ⟨hactive₁, hkept⟩, hagain, hnoted.active] at hshows
    rwa [rezoomed_noted htiled.layout (h.focus _ w hnoted.window)] at hshows
  · exact absurd (honly _ (hhome ▸ hthere)) hstays

end Undoing
end Split

/-! ## Undoing a new window -/

section NewWindow

variable {g : SessionGraph R} {created : NewWindow}

/-- What must hold after a window was taken back, next to the graph just before. -/
structure WindowUndone (s s' : SessionGraphSnapshot R) (created : NewWindow) : Prop where
  pane_gone : s'.panes.get created.pane = none
  window_gone : (∀ pid, Houses s created.window pid → pid = created.pane) →
    s'.windows.get created.window = none
  kept : ∀ pid, pid ≠ created.pane → ∀ k, Houses s' k pid ↔ Houses s k pid
  elsewhere : ∀ k, k ≠ created.window → s'.windows.get k = s.windows.get k
  focus : ∀ x, s.sessions.get created.session = some x → x.activeWindow ≠ created.window →
    ∃ x', s'.sessions.get created.session = some x' ∧ x'.activeWindow = x.activeWindow
  pane_focus : ∀ w, s.windows.get created.window = some w → w.activePane ≠ created.pane →
    ∃ w', s'.windows.get created.window = some w' ∧ w'.activePane = w.activePane

section

omit [Host] [F32 R]

/-- What is done once the pane is destroyed. -/
def NewWindow.restore (created : NewWindow) (ours : Bool) (g : SessionGraph R) : SessionGraph R :=
  match created.priorFocus, (g.state.sessions.get created.session).map (·.activeWindow) with
  | some prev, some now => if ours && now ≠ prev then (exec (focusWindow prev none) g).2 else g
  | _, _ => g

def NewWindow.focusIsStillOurs (created : NewWindow) (s : SessionGraphSnapshot R) : Bool :=
  (s.sessions.get created.session).map (·.activeWindow) == some created.window

end

theorem snd_undoWindowCreate (created : NewWindow) (g : SessionGraph R) :
    (exec (undoWindowCreate created) g).2 =
      created.restore (created.focusIsStillOurs g.state)
        (exec (destroyPaneAndEmptyParents created.pane) g).2 := by
  simp only [undoWindowCreate, exec_bind, exec_current, next_ok, exec_ignoring, NewWindow.restore]
  generalize (exec (destroyPaneAndEmptyParents created.pane) g).2 = g₁
  cases created.priorFocus with
  | none => rfl
  | some prev =>
    cases (g₁.state.sessions.get created.session).map (·.activeWindow) with
    | none => rfl
    | some now =>
      simp only [exec_ite, exec_ignoring]
      by_cases hcond : (created.focusIsStillOurs g.state && decide (now ≠ prev)) = true
      · rw [if_pos hcond]
        exact congrArg Prod.snd (if_pos hcond)
      · rw [if_neg hcond]
        exact congrArg Prod.snd (if_neg hcond)

section

omit [Host] [F32 R]

/-- Focusing a window edits its session alone. -/
theorem state_focusWindow (g : SessionGraph R) (id : WindowId) :
    (exec (focusWindow id none) g).2.state.panes = g.state.panes ∧
      (exec (focusWindow id none) g).2.state.windows = g.state.windows := by
  refine Ensures.snd (P := fun g' => g'.state.panes = g.state.panes ∧
    g'.state.windows = g.state.windows) ?_
  refine .bind_ok (exec_current g) ?_
  refine .okOr_bind (fun _ => ⟨rfl, rfl⟩) fun window _ => ?_
  refine .require_bind (fun _ _ => ⟨rfl, rfl⟩) fun _ _ => ?_
  refine .okOr_bind (fun _ => ⟨rfl, rfl⟩) fun session _ => ?_
  exact .guard (fun _ => ⟨rfl, rfl⟩) fun _ => ⟨rfl, rfl⟩

theorem sessions_focusWindow {id : WindowId} {w : Window R} {x : Session}
    (hw : g.state.windows.get id = some w) (hx : g.state.sessions.get w.sessionId = some x)
    (hmem : id ∈ x.windows) :
    (exec (focusWindow id none) g).2.state.sessions =
      g.state.sessions.modify w.sessionId fun s =>
        { s with activeWindow := id, version := s.version + 1 } := by
  simp [-bind_pure_comp, focusWindow, hw, okOr, hx, hmem, checkVersion,
    SessionGraphSnapshot.editSession]

theorem NewWindow.restore_maps (created : NewWindow) (ours : Bool) (g : SessionGraph R) :
    (created.restore ours g).state.panes = g.state.panes ∧
      (created.restore ours g).state.windows = g.state.windows := by
  unfold NewWindow.restore
  split
  · split_ifs
    · exact state_focusWindow g _
    · exact ⟨rfl, rfl⟩
  · exact ⟨rfl, rfl⟩

theorem NewWindow.restore_moved (created : NewWindow) (g : SessionGraph R) :
    created.restore false g = g := by
  unfold NewWindow.restore
  split
  · simp
  · rfl

end

section Undoing

variable [LawfulF32 R]
variable {x : Session}

omit [Host] [LawfulF32 R] in
/-- A session whose focus is elsewhere keeps it when the pane is taken. -/
theorem Takes.session_focus {s s' : SessionGraphSnapshot R} (hlinked : Linked s) {id : PaneId}
    {p : Pane} (hp : s.panes.get id = some p) (h : Takes s id s') {sid : SessionId}
    (hx : s.sessions.get sid = some x) (hmoved : x.activeWindow ≠ p.windowId) :
    ∃ x', s'.sessions.get sid = some x' ∧ x'.activeWindow = x.activeWindow := by
  cases h with
  | pane h =>
    cases h with
    | intro => exact ⟨x, hx, rfl⟩
  | @window q evs hq hlast h =>
    rw [hp] at hq
    cases hq
    cases h with
    | @intro w y listed hw hy hmore hlisted killed hkilled =>
      show ∃ x', (s.sessions.modify w.sessionId _).get sid = some x' ∧ _
      rw [get_modify, hx]
      split_ifs
      · refine ⟨_, rfl, ?_⟩
        exact if_neg hmoved
      · exact ⟨x, rfl, rfl⟩
  | @session q w y evs hq hlast hwindow hsession honly h =>
    rw [hp] at hq
    cases hq
    obtain ⟨-, -, -, hsessions⟩ := hlinked.gone_of_removesSession h
    have hne : sid ≠ w.sessionId := by
      rintro rfl
      rw [hx] at hsession
      cases hsession
      obtain ⟨y, hy, hmem⟩ := hlinked.window_listed _ w hwindow
      rw [hx] at hy
      cases hy
      have hactive := hlinked.active_window _ x hx
      rw [windows_only hmem honly, mem_singleton] at hactive
      exact hmoved hactive
    exact ⟨x, by rw [hsessions, get_remove, if_neg hne, hx], rfl⟩

omit [LawfulF32 R] in
/-- Whatever happened since the window was made, undoing it takes the new pane, the window if
nothing else is in it, and nothing else. -/
theorem window_undone (h : Orderly g)
    (hhome : ∀ k, Houses g.state k created.pane → k = created.window) :
    WindowUndone g.state (exec (undoWindowCreate created) g).2.state created := by
  rw [snd_undoWindowCreate]
  obtain ⟨hpanes, hwindows⟩ := created.restore_maps (created.focusIsStillOurs g.state)
    (exec (destroyPaneAndEmptyParents created.pane) g).2
  have hmoved : ∀ x, g.state.sessions.get created.session = some x →
      x.activeWindow ≠ created.window → created.focusIsStillOurs g.state = false := by
    intro x hx hne
    simp [NewWindow.focusIsStillOurs, hx, hne]
  cases hp : g.state.panes.get created.pane with
  | none =>
    rw [exec_destroyPaneAndEmptyParents_none hp] at hpanes hwindows ⊢
    refine ⟨by rw [hpanes, hp], fun honly => ?_, fun pid _ k => ?_, fun k _ => by rw [hwindows],
      fun x hx hne => ?_, fun w hw _ => ⟨w, by rw [hwindows, hw], rfl⟩⟩
    · rw [hwindows]
      apply Option.eq_none_iff_forall_ne_some.mpr
      intro w hw
      have htiled := h.tiled _ w hw
      have hactive := (htiled.leaves _).mp htiled.active_pane
      rw [honly _ hactive] at hactive
      exact not_houses_iff.mp hp _ hactive
    · rw [Houses, Houses, hpanes]
    · rw [hmoved x hx hne, NewWindow.restore_moved]
      exact ⟨x, hx, rfl⟩
  | some p =>
    have htakes := takes_of_destroy h.linked hp
    obtain hwin : p.windowId = created.window := hhome _ ⟨p, hp, rfl⟩
    have hhouses := htakes.houses_iff h.linked hp
    refine ⟨?_, fun honly => ?_, fun pid hne k => ?_, fun k hk => ?_, fun x hx hne => ?_,
      fun w hw hne => ?_⟩
    · rw [hpanes, htakes.get_panes h.linked hp, if_pos rfl]
    · rw [hwindows]
      rcases htakes.window_or_gone h.linked hp with ⟨evs, hremoves⟩ | ⟨hgone, -⟩
      · obtain ⟨-, -, -, -, -, -, -, other, hne, hother⟩ := shows_of_removesPane h hp hremoves
        exact absurd (honly other (hwin ▸ hother)) hne
      · apply Option.eq_none_iff_forall_ne_some.mpr
        intro w hw
        exact ((hgone.windows _ w).mp hw).2 (by simp [hwin])
    · have hget : Houses (created.restore (created.focusIsStillOurs g.state)
          (exec (destroyPaneAndEmptyParents created.pane) g).2).state k pid ↔
          Houses (exec (destroyPaneAndEmptyParents created.pane) g).2.state k pid := by
        rw [Houses, Houses, hpanes]
      rw [hget, hhouses]
      simp [hne]
    · rw [hwindows, htakes.get_windows h.linked hp (hwin ▸ hk)]
    · rw [hmoved x hx hne, NewWindow.restore_moved]
      exact htakes.session_focus h.linked hp hx (hwin ▸ hne)
    · rw [hwindows]
      rcases htakes.window_or_gone h.linked hp with ⟨evs, hremoves⟩ | ⟨-, honly⟩
      · obtain ⟨w₀, -, active, hw₀, -, ⟨w', hw', -, hactive'⟩, hactive, -⟩ :=
          shows_of_removesPane h hp hremoves
        rw [hwin] at hw₀ hw'
        rw [hw] at hw₀
        cases hw₀
        exact ⟨w', hw', by rw [hactive', hactive hne]⟩
      · have htiled := h.tiled _ w hw
        exact absurd (honly _ (hwin ▸ (htiled.leaves _).mp htiled.active_pane)) hne

/-- What making a window that is noted does. -/
structure WindowNoted (g g' : SessionGraph R) (created : NewWindow) (x : Session) : Prop where
  session : g.state.sessions.get created.session = some x
  prior : created.priorFocus = some x.activeWindow
  fresh : Fresh g.drawn g'.drawn created.window.uuid
  home : Houses g'.state created.window created.pane
  alone : ∀ pid, Houses g'.state created.window pid → pid = created.pane
  window : ∃ w, g'.state.windows.get created.window = some w ∧ w.sessionId = created.session
  added : ∃ x', g'.state.sessions.get created.session = some x' ∧
    x'.windows = x.windows ++ [created.window] ∧ x'.activeWindow = created.window
  moves : Moves {k | k ≠ .addPane} g g'

omit [F32 R] [LawfulF32 R] in
/-- The window a creation returns, and the graph it leaves. -/
theorem createWindow_exact (g : SessionGraph R) (sid : SessionId) (title : Str) (cwd : PathBuf)
    (command : List Str) :
    Ensures (createWindowWithCommand sid title cwd command) g (fun _ _ => True)
      fun wid g' => Fresh g.drawn g'.drawn wid.uuid ∧ ∃ x pid p w,
        g.state.sessions.get sid = some x ∧ Fresh g.drawn g'.drawn pid.uuid ∧
        p.windowId = wid ∧ w.sessionId = sid ∧ w.activePane = pid ∧
        g'.state.panes = g.state.panes.insert pid p ∧
        g'.state.windows = g.state.windows.insert wid w ∧
        g'.state.sessions = g.state.sessions.modify sid fun s =>
          { s with windows := s.windows ++ [wid], activeWindow := wid,
                   version := s.version + 1 } := by
  refine .require_bind (fun _ _ => trivial) fun title _ => ?_
  refine .bind_ok (exec_current g) ?_
  refine .guard (fun _ => trivial) fun hsession => ?_
  refine .guard (fun _ => trivial) fun _ => ?_
  refine .require_bind (fun _ _ => trivial) fun _ _ => ?_
  refine .bind_ok (exec_PaneId_new g) ?_
  refine .bind_ok (exec_WindowId_new _) ?_
  refine .bind_ok (exec_newPane _ _ _ _) ?_
  refine .bind_ok (exec_WindowId_new _) ?_
  rw [Bool.not_eq_true', Bool.not_eq_false, FinMap.contains_iff] at hsession
  obtain ⟨x, hx⟩ := hsession
  refine ⟨⟨g.drawn + 1, by omega, ?_, rfl⟩, x, ⟨Host.newV4 g.drawn⟩, _, _, hx,
    ⟨g.drawn, le_rfl, ?_, rfl⟩, rfl, rfl, rfl, rfl, rfl, rfl⟩
  · show g.drawn + 1 < g.drawn + 1 + 1 + 1 + 1
    omega
  · show g.drawn < g.drawn + 1 + 1 + 1 + 1
    omega

section

omit [LawfulF32 R]

/-- Making the window, once its title is known. -/
theorem createTitled_noted (h : Orderly g) {gq : SessionGraph R} (hquiet : Quiet g gq)
    (session : SessionId) (title : Str) (cwd : PathBuf) (command : List Str) :
    Ensures (do
        let priorFocus := (g.state.sessions.get session).map (·.activeWindow)
        let window ← createWindowWithCommand session title cwd command
        let pane ← okOr (((← current).windows.get window).map (·.activePane))
          (.windowNotFound window)
        return (⟨session, window, pane, priorFocus⟩ : NewWindow) : GraphM R GraphError NewWindow)
      gq (fun _ _ => True) fun created g' => ∃ x, WindowNoted g g' created x := by
  have hmoves : Moves {k | k ≠ .addPane} g gq := .of_quiet hquiet
  obtain ⟨draws, seqs, rfl⟩ := hquiet
  refine .bind ((createWindow_exact _ session title cwd command).and
    ((createWindow_spec _ session title cwd command).mono (fun _ _ _ => trivial) fun _ _ h => h)
    |>.mono (fun _ _ _ => trivial) fun _ _ h => h) ?_
  rintro wid g' ⟨⟨hfresh, x, pid, p, w, hx, hpid, hhome, hsid, hactive, hpanes, hwindows,
    hsessions⟩, s, evs, hcommitted, hadds⟩
  have hwid : Fresh g.drawn g'.drawn wid.uuid := hfresh.widen (by simp)
  refine .bind_ok (exec_current g') ?_
  have hw : g'.state.windows.get wid = some w := by rw [hwindows, get_insert_self]
  refine .okOr_bind (fun _ => trivial) fun pane hpane => ?_
  rw [hw, Option.map_some, Option.some.injEq, hactive] at hpane
  subst hpane
  refine ⟨x, hx, ?_, hwid, ?_, ?_, ⟨w, hw, hsid⟩, ?_, ?_⟩
  · show (g.state.sessions.get session).map (·.activeWindow) = some x.activeWindow
    rw [take_state] at hx
    rw [hx]
    rfl
  · exact ⟨p, by rw [hpanes, get_insert_self], hhome⟩
  · rintro q ⟨r, hr, hrhome⟩
    rw [hpanes, get_insert] at hr
    split_ifs at hr with hq
    · exact hq
    · obtain ⟨w', hw'⟩ := h.linked.pane_window q r hr
      rw [hrhome, h.sound.drawn.get_window hwid] at hw'
      cases hw'
  · show ∃ x', g'.state.sessions.get session = some x' ∧ _
    rw [hsessions, get_modify, if_pos rfl, hx]
    exact ⟨_, rfl, rfl, rfl⟩
  · exact hmoves.trans (.of_effect hcommitted (.addWindow (by simp) hadds))

theorem createIn_noted (h : Orderly g) (session : SessionId) (title : Option Str) (cwd : PathBuf)
    (command : List Str) :
    Ensures (createIn session title cwd command) g (fun _ _ => True) fun created g' =>
      ∃ x, WindowNoted g g' created x := by
  refine .bind_ok (exec_current g) ?_
  cases title with
  | some title => exact createTitled_noted h (.refl g) session title cwd command
  | none =>
    refine .bind_ok (exec_defaultWindowTitle g.state session command cwd g) ?_
    exact createTitled_noted h (.take g 2 0) session _ cwd command

end

omit [Host] [F32 R] [LawfulF32 R] in
/-- Taking the last window of the list out of it. -/
theorem filter_ne_append {l : List WindowId} {wid : WindowId} (h : wid ∉ l) :
    (l ++ [wid]).filter (fun k => k ≠ wid) = l := by
  rw [filter_append, List.filter_eq_self.mpr]
  · simp
  · intro k hk
    simp only [ne_eq, decide_eq_true_eq]
    rintro rfl
    exact h hk

omit [LawfulF32 R] in
/-- Destroying the pane right away takes the window out of the session again. -/
theorem WindowNoted.destroyed {g₁ : SessionGraph R} (h : Orderly g) (h₁ : Orderly g₁)
    (hnoted : WindowNoted g g₁ created x) :
    ∃ x₂, (exec (destroyPaneAndEmptyParents created.pane) g₁).2.state.sessions.get
      created.session = some x₂ ∧ x₂.windows = x.windows := by
  obtain ⟨p, hp, hhome⟩ := hnoted.home
  obtain ⟨w, hw, hsid⟩ := hnoted.window
  obtain ⟨x₁, hx₁, hlist, -⟩ := hnoted.added
  have hnot : created.window ∉ x.windows := by
    intro hmem
    obtain ⟨w₀, hw₀, -⟩ := h.linked.windows_exist _ x hnoted.session _ hmem
    rw [h.sound.drawn.get_window hnoted.fresh] at hw₀
    cases hw₀
  have htakes := takes_of_destroy h₁.linked hp
  generalize (exec (destroyPaneAndEmptyParents created.pane) g₁).2.state = s' at htakes ⊢
  cases htakes with
  | pane hremoves =>
    obtain ⟨-, -, -, -, -, -, -, other, hne, hother⟩ := shows_of_removesPane h₁ hp hremoves
    exact absurd (hnoted.alone other (hhome ▸ hother)) hne
  | @window q evs hq hlast hremoves =>
    rw [hp] at hq
    cases hq
    cases hremoves with
    | @intro w' y listed hw' hy hmore hlisted killed hkilled =>
      rw [hhome] at hw'
      rw [hw] at hw'
      cases hw'
      show ∃ x₂, (g₁.state.sessions.modify w.sessionId _).get created.session = some x₂ ∧ _
      rw [hsid, get_modify, if_pos rfl, hx₁]
      refine ⟨_, rfl, ?_⟩
      show x₁.windows.filter (fun k => k ≠ p.windowId) = x.windows
      rw [hhome, hlist, filter_ne_append hnot]
  | @session q w' y evs hq hlast hw' hy honly hremoves =>
    rw [hp] at hq
    cases hq
    rw [hhome, hw] at hw'
    cases hw'
    rw [hsid, hx₁] at hy
    cases hy
    rw [hlist, length_append, length_singleton] at honly
    exact absurd (eq_nil_of_length_eq_zero (by omega))
      (h.linked.windows_ne_nil _ x hnoted.session)

/-- With nothing in between, the session has its windows and its focus as before. -/
theorem WindowNoted.restored {g₁ : SessionGraph R} (h : Orderly g)
    (hnoted : WindowNoted g g₁ created x) :
    ∃ x', (exec (undoWindowCreate created) g₁).2.state.sessions.get created.session = some x' ∧
      x'.windows = x.windows ∧ x'.activeWindow = x.activeWindow := by
  have h₁ : Orderly g₁ := h.moves hnoted.moves fun hmem => hmem rfl
  have h₂ := h₁.destroyPaneAndEmptyParents created.pane
  obtain ⟨x₁, hx₁, -, hactive₁⟩ := hnoted.added
  obtain ⟨x₂, hx₂, hwindows⟩ := hnoted.destroyed h h₁
  have hours : created.focusIsStillOurs g₁.state = true := by
    simp [NewWindow.focusIsStillOurs, hx₁, hactive₁]
  rw [snd_undoWindowCreate, hours]
  simp only [NewWindow.restore, hnoted.prior, hx₂, Option.map_some, Bool.true_and]
  by_cases hsame : x₂.activeWindow = x.activeWindow
  · rw [if_neg (by simpa using hsame)]
    exact ⟨x₂, hx₂, hwindows, hsame⟩
  · rw [if_pos (by simpa using hsame)]
    have hmem : x.activeWindow ∈ x₂.windows := by
      rw [hwindows]
      exact h.linked.active_window _ x hnoted.session
    obtain ⟨w, hw, hsid⟩ := h₂.linked.windows_exist _ x₂ hx₂ _ hmem
    rw [sessions_focusWindow hw (hsid ▸ hx₂) hmem, hsid, get_modify, if_pos rfl, hx₂]
    exact ⟨_, rfl, hwindows, rfl⟩

end Undoing
end NewWindow

section Runs

variable [LawfulF32 R]

theorem splitNotingUndo_undone {g g₁ : SessionGraph R} (h : Orderly g) {pane newPane : PaneId}
    {direction : Direction} {ratio : R} {command : List Str} {prior : Option SplitUndo}
    (hsplit : exec (splitNotingUndo pane direction ratio command) g = (.ok (newPane, prior), g₁))
    (between : List (GraphCommand R)) (hbetween : ∀ cmd ∈ between, cmd.isBare = false) :
    let g₂ := g₁.run between
    let s' := (exec (undoSplit newPane prior) g₂).2.state
    ∃ p w, g.state.panes.get pane = some p ∧ g.state.windows.get p.windowId = some w ∧
      SplitUndone g₂.state s' newPane p.windowId ∧
      (between = [] → Shows s' p.windowId w.layout w.activePane) := by
  obtain ⟨p, prior, w, hp, hprior, hwindow, hnoted⟩ :=
    (splitPane_noted g pane direction ratio command).of_ok hsplit
  replace hprior : _ = some prior := hprior
  subst hprior
  have h₁ := hnoted.orderly h
  have hmoves := run_moves_tiled g₁ between hbetween
  refine ⟨p, w, hp, hwindow ▸ hnoted.window, ?_, ?_⟩
  · exact hwindow ▸ undone (h₁.run between hbetween) (hnoted.fits h hmoves)
  · rintro rfl
    exact hwindow ▸ hnoted.restored h

theorem createIn_undone {g g₁ : SessionGraph R} (h : Orderly g) {session : SessionId}
    {title : Option Str} {cwd : PathBuf} {command : List Str} {created : NewWindow}
    (hcreate : exec (createIn session title cwd command) g = (.ok created, g₁))
    (between : List (GraphCommand R)) (hbetween : ∀ cmd ∈ between, cmd.isBare = false) :
    let g₂ := g₁.run between
    let s' := (exec (undoWindowCreate created) g₂).2.state
    ∃ x, g.state.sessions.get created.session = some x ∧ WindowUndone g₂.state s' created ∧
      (between = [] → ∃ x', s'.sessions.get created.session = some x' ∧
        x'.windows = x.windows ∧ x'.activeWindow = x.activeWindow) := by
  obtain ⟨x, hnoted⟩ := (createIn_noted h session title cwd command).of_ok hcreate
  have h₁ : Orderly g₁ := h.moves hnoted.moves fun hmem => hmem rfl
  refine ⟨x, hnoted.session, window_undone (h₁.run between hbetween) ?_, ?_⟩
  · exact (run_moves_tiled g₁ between hbetween).houses_old h₁.sound hnoted.home
  · rintro rfl
    exact hnoted.restored h

/-- A window that was made or ensured was made in the same way. -/
def MakesWindow (g : SessionGraph R) (created : NewWindow) (g₁ : SessionGraph R) : Prop :=
  (∃ session title cwd command,
    exec (createWindowNotingFocus session title cwd command) g = (.ok created, g₁)) ∨
  ∃ session name cwd command,
    exec (ensureWindowNotingFocus session name cwd command) g = (.ok (.ok created), g₁)

omit [F32 R] [LawfulF32 R] in
theorem MakesWindow.createIn {g g₁ : SessionGraph R} {created : NewWindow}
    (h : MakesWindow g created g₁) :
    ∃ session title cwd command,
      exec (createIn session title cwd command) g = (.ok created, g₁) := by
  rcases h with h | ⟨session, name, cwd, command, h⟩
  · exact h
  · refine ⟨session, some name, cwd, command, ?_⟩
    simp only [ensureWindowNotingFocus, exec_bind, exec_current, next_ok] at h
    cases hfound : g.state.findWindowByName session name with
    | some w =>
      simp only [hfound, exec_pure] at h
      cases h
    | none =>
      simp only [hfound, exec_bind] at h
      revert h
      obtain ⟨r, g'⟩ := exec (SessionGraph.createIn session (some name) cwd command) g
      cases r with
      | ok made =>
        intro h
        cases h
        rfl
      | error e =>
        intro h
        cases h

/-- From any graph that commands lead to, and whatever commands come in between, undoing a split
or a new window takes back what was made, puts the layout and the focus back if nothing
happened, and otherwise leaves the focus, the zoom and the panes of others alone. -/
theorem undo_confined (before between : List (GraphCommand R))
    (hbefore : ∀ cmd ∈ before, cmd.isBare = false)
    (hbetween : ∀ cmd ∈ between, cmd.isBare = false) :
    let g := SessionGraph.newWithEventBus.run before
    (∀ pane direction ratio command newPane prior g₁,
      exec (splitNotingUndo pane direction ratio command) g = (.ok (newPane, prior), g₁) →
        let g₂ := g₁.run between
        let s' := (exec (undoSplit newPane prior) g₂).2.state
        ∃ p w, g.state.panes.get pane = some p ∧ g.state.windows.get p.windowId = some w ∧
          SplitUndone g₂.state s' newPane p.windowId ∧
          (between = [] → Shows s' p.windowId w.layout w.activePane)) ∧
    (∀ created g₁, MakesWindow g created g₁ →
      let g₂ := g₁.run between
      let s' := (exec (undoWindowCreate created) g₂).2.state
      ∃ x, g.state.sessions.get created.session = some x ∧ WindowUndone g₂.state s' created ∧
        (between = [] → ∃ x', s'.sessions.get created.session = some x' ∧
          x'.windows = x.windows ∧ x'.activeWindow = x.activeWindow)) := by
  intro g
  have h : Orderly g := orderly_new.run before hbefore
  refine ⟨?_, ?_⟩
  · intro pane direction ratio command newPane prior g₁ hsplit
    exact splitNotingUndo_undone h hsplit between hbetween
  · intro created g₁ hmakes
    obtain ⟨session, title, cwd, command, hcreate⟩ := hmakes.createIn
    exact createIn_undone h hcreate between hbetween

end Runs
end Undo

namespace Sample

/-- A session of one pane, which is split. -/
def split : Except GraphError (PaneId × Option SplitUndo) × SessionGraph ℚ :=
  exec (splitNotingUndo ⟨⟨1⟩⟩ .vertical (1 / 2) []) (SessionGraph.newWithEventBus.run [create])

/-- A second window in it. -/
def window : Except GraphError NewWindow × SessionGraph ℚ :=
  exec (createWindowNotingFocus ⟨⟨9⟩⟩ none (.ofStr "/".toList) [])
    (SessionGraph.newWithEventBus.run [create])

/-- The first pane is focused again before the split is undone. -/
theorem undo_confined_refocused :
    let g₂ := split.2.run [.focusPane ⟨⟨1⟩⟩]
    let s' := (exec (undoSplit ⟨⟨11⟩⟩ (some ⟨⟨⟨2⟩⟩, ⟨⟨1⟩⟩, none⟩)) g₂).2.state
    g₂.state.panes.size = 2 ∧ SplitUndone g₂.state s' ⟨⟨11⟩⟩ ⟨⟨2⟩⟩ := by
  refine ⟨by decide, ?_⟩
  have hsplit : exec (splitNotingUndo ⟨⟨1⟩⟩ .vertical (1 / 2) [])
      (SessionGraph.newWithEventBus.run [create]) =
        (.ok (⟨⟨11⟩⟩, some ⟨⟨⟨2⟩⟩, ⟨⟨1⟩⟩, none⟩), split.2) := rfl
  obtain ⟨p, w, hp, -, hundone, -⟩ := (undo_confined [create] [.focusPane ⟨⟨1⟩⟩] (by decide)
    (by decide)).1 _ _ _ _ _ _ _ hsplit
  have hhome : (((SessionGraph.newWithEventBus.run [create]).state.panes.get ⟨⟨1⟩⟩).map
      (·.windowId)) = some ⟨⟨2⟩⟩ := by decide
  rw [hp, Option.map_some, Option.some.injEq] at hhome
  exact hhome ▸ hundone

/-- A pane is added to the new window before it is undone: the window stays. -/
theorem new_window_stays :
    ∃ created g₁, MakesWindow (SessionGraph.newWithEventBus.run [create]) created g₁ ∧
      (((exec (undoWindowCreate created)
        (g₁.run [.splitPane created.pane .vertical (1 / 2) []])).2.state.windows.get
          created.window).isSome = true) := by
  refine ⟨⟨⟨⟨9⟩⟩, ⟨⟨14⟩⟩, ⟨⟨13⟩⟩, some ⟨⟨2⟩⟩⟩, window.2, .inl ?_, by decide⟩
  exact ⟨⟨⟨9⟩⟩, none, .ofStr "/".toList, [], rfl⟩

end Sample

end Shux
