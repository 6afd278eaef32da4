/-
# Versions of panes whose layout moved

A layout operation moves panes it was not handed, so a client that holds the version
of any pane of the window should see a conflict afterwards. Focusing, resizing,
swapping and zooming bump every pane of the window they move. Splitting, alone or in
a batch, and destroying a pane bump none: what they leave of the window's panes is
what it was, and there is always something left, since every window keeps a pane.
-/

import Shux.Core.Versions

namespace Shux

variable {R : Type}

/-- Every window has a pane. -/
def Peopled (s : SessionGraphSnapshot R) : Prop :=
  ∀ wid w, s.windows.get wid = some w → ∃ pid p, s.panes.get pid = some p ∧ p.windowId = wid

section Peopled

variable {s s' : SessionGraphSnapshot R}

/-- Each pane went on in its window, and no window came. -/
theorem Peopled.of_kept (h : Peopled s)
    (hwindows : ∀ wid, (s'.windows.get wid).isSome → (s.windows.get wid).isSome)
    (hpanes : ∀ pid p, s.panes.get pid = some p →
      ∃ p', s'.panes.get pid = some p' ∧ p'.windowId = p.windowId) : Peopled s' := by
  intro wid w' hw'
  obtain ⟨w, hw⟩ := Option.isSome_iff_exists.mp (hwindows wid (by rw [hw']; rfl))
  obtain ⟨pid, p, hp, hpw⟩ := h wid w hw
  obtain ⟨p', hp', heq⟩ := hpanes pid p hp
  exact ⟨pid, p', hp', heq.trans hpw⟩

theorem get_insert_of_new {m : FinMap PaneId Pane} {pid pid' : PaneId} {p p' : Pane}
    (hnew : m.get pid = none) (hp' : m.get pid' = some p') :
    (m.insert pid p).get pid' = some p' := by
  have hne : pid' ≠ pid := by
    rintro rfl
    rw [hnew] at hp'
    cases hp'
  rw [FinMap.get_insert, if_neg hne, hp']

/-- A window comes with a pane. -/
theorem Peopled.add_window (h : Peopled s) {wid : WindowId} {w : Window R} {pid : PaneId} {p : Pane}
    (hnew : s.panes.get pid = none) (hp : p.windowId = wid)
    (hwindows : s'.windows = s.windows.insert wid w) (hpanes : s'.panes = s.panes.insert pid p) :
    Peopled s' := by
  unfold Peopled
  rw [hwindows, hpanes]
  refine FinMap.forall_insert ⟨pid, p, FinMap.get_insert_self _ _ _, hp⟩ fun wid' w' hw' => ?_
  obtain ⟨pid', p', hp', hpw'⟩ := h wid' w' hw'
  exact ⟨pid', p', get_insert_of_new hnew hp', hpw'⟩

theorem Peopled.remove_windows (h : Peopled s) {gone : List WindowId}
    (hgone : WindowsGone gone s s') : Peopled s' := by
  intro wid w hw
  obtain ⟨hw₀, hstays⟩ := (hgone.windows wid w).mp hw
  obtain ⟨pid, p, hp, rfl⟩ := h wid w hw₀
  exact ⟨pid, p, (hgone.panes pid p).mpr ⟨hp, hstays⟩, rfl⟩

variable [F32 R]

/-- The last pane of a window cannot be removed. -/
theorem Peopled.of_removesPane (h : Peopled s) (hlinked : Linked s) {pid : PaneId}
    {evs : List EventData} (hremoves : RemovesPane s pid s' evs) : Peopled s' := by
  cases hremoves with
  | @intro pane window listed active hpane hmore hwindow hactive =>
    intro wid w' hw'
    have hsome : (s.windows.get wid).isSome := by
      have hget : ((s.relayout pane.windowId (window.layout.removePane pid).1 active
        (s.panes.remove pid)).windows.get wid).isSome := by
        rw [hw']
        rfl
      simpa [SessionGraphSnapshot.relayout] using hget
    show ∃ pid' p, (s.panes.remove pid).get pid' = some p ∧ p.windowId = wid
    simp only [FinMap.get_remove]
    by_cases hwid : pane.windowId = wid
    · -- More than one pane was counted, so one of them is another.
      have hids : 1 < (windowPaneIds s.panes pane.windowId).length := by
        rw [windowPaneIds, List.length_map]
        exact hmore
      have hnodup := hlinked.nodup_windowPaneIds pane.windowId
      obtain ⟨pid', hmem, hne⟩ : ∃ pid' ∈ windowPaneIds s.panes pane.windowId, pid' ≠ pid := by
        by_contra hall
        push Not at hall
        have hle := List.nodup_iff_count_le_one.mp hnodup pid
        rw [List.count_eq_length.mpr fun b hb => (hall b hb).symm] at hle
        omega
      obtain ⟨p, hp, hpw⟩ := (hlinked.mem_windowPaneIds _ _).mp hmem
      exact ⟨pid', p, by rw [if_neg hne, hp], hpw.trans hwid⟩
    · obtain ⟨w, hw⟩ := Option.isSome_iff_exists.mp hsome
      obtain ⟨pid', p, hp, hpw⟩ := h wid w hw
      have hne : pid' ≠ pid := by
        rintro rfl
        rw [hpane] at hp
        cases hp
        exact hwid hpw
      exact ⟨pid', p, by rw [if_neg hne, hp], hpw⟩

variable [Host]

theorem Effect.peopled {kinds : Set Kind} {lo hi : Nat} {evs : List EventData}
    (h : Effect kinds lo hi s s' evs) (hsound : Sound lo s) (hpeopled : Peopled s) :
    Peopled s' := by
  cases h with
  | addSession hkind h =>
    cases h with
    | intro at₀ seq hsid hwid hpid =>
      exact hpeopled.add_window (hsound.drawn.get_pane hpid) rfl rfl rfl
  | addWindow hkind h =>
    cases h with
    | intro index hwid hpid => exact hpeopled.add_window (hsound.drawn.get_pane hpid) rfl rfl rfl
  | addPane hkind h =>
    cases h with
    | intro hpid =>
      refine hpeopled.of_kept (fun _ hsome => hsome) fun pid p hp => ⟨p, ?_, rfl⟩
      exact get_insert_of_new (hsound.drawn.get_pane hpid) hp
  | splitPane hkind h =>
    cases h with
    | intro hpid =>
      refine hpeopled.of_kept (fun _ hsome => ?_) fun pid p hp => ⟨p, ?_, rfl⟩
      · simpa [SessionGraphSnapshot.relayout] using hsome
      · exact get_insert_of_new (hsound.drawn.get_pane hpid) hp
  | removeSession hkind h =>
    obtain ⟨session, -, hgone, -⟩ := hsound.linked.gone_of_removesSession h
    exact hpeopled.remove_windows hgone
  | removeWindow hkind h => exact hpeopled.remove_windows (hsound.linked.gone_of_removesWindow h)
  | removePane hkind h => exact hpeopled.of_removesPane hsound.linked h
  | editSession hkind hsession h =>
    exact hpeopled.of_kept (fun _ hsome => hsome) fun pid p hp => ⟨p, hp, rfl⟩
  | renameWindow hkind h =>
    cases h with
    | intro =>
      refine hpeopled.of_kept (fun _ hsome => ?_) fun pid p hp => ⟨p, hp, rfl⟩
      simpa [SessionGraphSnapshot.editWindow] using hsome
  | @editPane id pane edit evs hkind hpane hkeeps hevs =>
    refine hpeopled.of_kept (fun _ hsome => hsome) fun pid p hp => ?_
    rw [SessionGraphSnapshot.editPane, FinMap.get_modify, hp]
    split_ifs
    · exact ⟨edit p, rfl, (hkeeps p).windowId⟩
    · exact ⟨p, rfl, rfl⟩
  | relayout hkind h =>
    cases h with
    | @intro window layout active panes focusEvents hwindow hmove hpanes hfocus =>
      refine hpeopled.of_kept (fun _ hsome => ?_) fun pid p hp => ?_
      · simpa [SessionGraphSnapshot.relayout] using hsome
      · rcases hsound.linked.get_of_bumped hpanes with hbumped | ⟨rfl, -⟩
        · have hget := hbumped pid
          rw [hp] at hget
          refine ⟨_, hget, ?_⟩
          dsimp only
          split_ifs
          · rfl
          · rfl
        · exact ⟨p, hp, rfl⟩

theorem Trace.peopled {kinds : Set Kind} {lo hi n : Nat} {evs : List EventData}
    (h : Trace kinds lo hi n s s' evs) (hsound : Sound lo s) (hpeopled : Peopled s) :
    Peopled s' := by
  induction h with
  | refl s hle => exact hpeopled
  | snoc htrace heffect hle ih => exact heffect.peopled (htrace.sound hsound) (ih hsound hpeopled)

end Peopled

/-- Every pane that is in the window before and after has a greater version after. -/
def Refreshed (s s' : SessionGraphSnapshot R) (wid : WindowId) : Prop :=
  ∀ pid p p', s.panes.get pid = some p → s'.panes.get pid = some p' → p.windowId = wid →
    p'.windowId = wid → p.version < p'.version

section Bumping

variable [Host] [F32 R] {s s' : SessionGraphSnapshot R} {kinds : Set Kind} {lo hi : Nat}
  {evs : List EventData}

/-- An effect other than a split or the removal of a pane that moves a layout bumps
the panes under it. -/
theorem Effect.refreshed (h : Effect kinds lo hi s s' evs) (hsound : Sound lo s)
    (hsplit : .splitPane ∉ kinds) (hremove : .removePane ∉ kinds) {wid : WindowId}
    {w w' : Window R} (hw : s.windows.get wid = some w) (hw' : s'.windows.get wid = some w')
    (hmoved : w'.layout ≠ w.layout) : Refreshed s s' wid := by
  have hsame : s'.windows.get wid = s.windows.get wid → Refreshed s s' wid := by
    intro heq
    rw [heq, hw] at hw'
    cases hw'
    exact absurd rfl hmoved
  have hinsert : ∀ {wid₀ : WindowId} {w₀ : Window R}, s.windows.get wid₀ = none →
      (s.windows.insert wid₀ w₀).get wid = s.windows.get wid := by
    intro wid₀ w₀ hnone
    have hne : wid ≠ wid₀ := by
      rintro rfl
      rw [hnone] at hw
      cases hw
    rw [FinMap.get_insert, if_neg hne]
  cases h with
  | addSession hkind h =>
    cases h with
    | intro at₀ seq hsid hwid => exact hsame (hinsert (hsound.drawn.get_window hwid))
  | addWindow hkind h =>
    cases h with
    | intro index hwid => exact hsame (hinsert (hsound.drawn.get_window hwid))
  | addPane hkind h =>
    cases h with
    | intro => exact hsame rfl
  | splitPane hkind h => exact absurd hkind hsplit
  | removeSession hkind h =>
    obtain ⟨session, -, hgone, -⟩ := hsound.linked.gone_of_removesSession h
    exact hsame (hw'.trans ((hgone.windows wid w').mp hw').1.symm)
  | removeWindow hkind h =>
    have hgone := hsound.linked.gone_of_removesWindow h
    exact hsame (hw'.trans ((hgone.windows wid w').mp hw').1.symm)
  | removePane hkind h => exact absurd hkind hremove
  | editSession hkind hsession h => exact hsame rfl
  | renameWindow hkind h =>
    cases h with
    | intro =>
      rw [SessionGraphSnapshot.editWindow, FinMap.get_modify, hw] at hw'
      split_ifs at hw'
      · cases hw'
        exact absurd rfl hmoved
      · cases hw'
        exact absurd rfl hmoved
  | editPane hkind hpane hkeeps hevs => exact hsame rfl
  | @relayout wid₀ _ _ hkind h =>
    cases h with
    | @intro window layout active panes focusEvents hwindow hmove hpanes hfocus =>
      rw [SessionGraphSnapshot.relayout, FinMap.get_modify, hw] at hw'
      split_ifs at hw' with hwid
      · subst hwid
        rw [hw] at hwindow
        cases hwindow
        cases hw'
        rcases hsound.linked.get_of_bumped hpanes with hbumped | ⟨-, hstill⟩
        · intro pid p p' hp hp' hpw hpw'
          replace hp' : panes.get pid = some p' := hp'
          rw [hbumped, hp, Option.map_some, if_pos hpw] at hp'
          cases hp'
          exact Nat.lt_succ_self p.version
        · exact absurd hmoved hstill
      · cases hw'
        exact absurd rfl hmoved

/-- What one effect of a chain does to the panes under a layout, no later one undoes. -/
theorem Trace.refreshed {n : Nat} (h : Trace kinds lo hi n s s' evs) (hsound : Sound lo s)
    (hsplit : .splitPane ∉ kinds) (hremove : .removePane ∉ kinds) {wid : WindowId}
    {w w' : Window R} (hw : s.windows.get wid = some w) (hw' : s'.windows.get wid = some w')
    (hmoved : w'.layout ≠ w.layout) : Refreshed s s' wid := by
  induction h generalizing w' with
  | refl s hle =>
    rw [hw] at hw'
    cases hw'
    exact absurd rfl hmoved
  | snoc htrace heffect hle ih =>
    have hsound₁ := htrace.sound hsound
    have haged := htrace.aged hsound
    have haged₁ := heffect.aged hsound₁.linked
    intro pid p p'' hp hp'' hpw hpw''
    have hold := hsound.drawn.pane pid p hp
    obtain ⟨p', hp', hlater'⟩ := haged₁.old_pane (hold.mono htrace.le) hp''
    obtain ⟨q, hq, hlater⟩ := haged.old_pane hold hp'
    rw [hp] at hq
    cases hq
    have hwold := hsound.drawn.window wid w hw
    obtain ⟨w₁, hw₁, -⟩ := haged₁.old_window (hwold.mono htrace.le) hw'
    have hpw' : p'.windowId = wid := hlater.windowId.trans hpw
    by_cases hfirst : w₁.layout = w.layout
    · have hsecond := heffect.refreshed hsound₁ hsplit hremove hw₁ hw' (hfirst ▸ hmoved)
      exact hlater.newer.le.trans_lt (hsecond pid p' p'' hp' hp'' hpw' hpw'')
    · exact (ih hsound hw hw₁ hfirst pid p p' hp hp' hpw hpw').trans_le hlater'.newer.le

/-- Creations and splits leave every pane that was there as it was. -/
theorem Trace.keeps_panes {n : Nat} (h : Trace kinds lo hi n s s' evs)
    (hkinds : kinds ⊆ stagedKinds) (hsound : Sound lo s) {pid : PaneId} {p : Pane}
    (hp : s.panes.get pid = some p) : s'.panes.get pid = some p := by
  induction h with
  | refl s hle => exact hp
  | snoc htrace heffect hle ih =>
    have hdrawn := (htrace.sound hsound).drawn
    replace ih := ih hsound hp
    cases heffect with
    | addSession hkind h =>
      cases h with
      | intro at₀ seq hsid hwid hpid => exact get_insert_of_new (hdrawn.get_pane hpid) ih
    | addWindow hkind h =>
      cases h with
      | intro index hwid hpid => exact get_insert_of_new (hdrawn.get_pane hpid) ih
    | splitPane hkind h =>
      cases h with
      | intro hpid => exact get_insert_of_new (hdrawn.get_pane hpid) ih
    | addPane hkind | removeSession hkind | removeWindow hkind | removePane hkind
    | editSession hkind | renameWindow hkind | relayout hkind =>
      exact absurd (hkinds hkind) (by simp [stagedKinds])
    | editPane hkind =>
      rcases hkind with ⟨hkind, -⟩ | hkind
      all_goals exact absurd (hkinds hkind) (by simp [stagedKinds])

/-- The kinds of effects that take something away. -/
def removingKinds : Set Kind := {.removePane, .removeWindow, .removeSession}

/-- Removals leave what they do not remove as it was. -/
theorem Trace.leaves_panes {n : Nat} (h : Trace kinds lo hi n s s' evs)
    (hkinds : kinds ⊆ removingKinds) {pid : PaneId} {p : Pane}
    (hp : s'.panes.get pid = some p) : s.panes.get pid = some p := by
  induction h with
  | refl s hle => exact hp
  | snoc htrace heffect hle ih =>
    refine ih ?_
    cases heffect with
    | removeSession hkind h =>
      cases h with
      | intro => exact FinMap.forall_removeAll _ (fun _ _ h => h) pid p hp
    | removeWindow hkind h =>
      cases h with
      | intro => exact FinMap.forall_removeAll _ (fun _ _ h => h) pid p hp
    | removePane hkind h =>
      cases h with
      | intro => exact FinMap.forall_remove _ (fun _ _ h => h) pid p hp
    | addSession hkind | addWindow hkind | addPane hkind | splitPane hkind | editSession hkind
    | renameWindow hkind | relayout hkind =>
      exact absurd (hkinds hkind) (by simp [removingKinds])
    | editPane hkind =>
      rcases hkind with ⟨hkind, -⟩ | hkind
      all_goals exact absurd (hkinds hkind) (by simp [removingKinds])

end Bumping

/-- The commands that add panes to a layout or take them out of it. -/
def GraphCommand.reshapes : GraphCommand R → Bool
  | splitPane .. | applyBatch .. | destroyPane .. | destroyPaneAndEmptyParents .. => true
  | _ => false

theorem GraphCommand.kinds_of_not_reshapes {cmd : GraphCommand R} (h : cmd.reshapes = false) :
    .splitPane ∉ cmd.kinds ∧ .removePane ∉ cmd.kinds := by
  cases cmd with
  | splitPane target direction ratio command | applyBatch ops | destroyPane id ev
  | destroyPaneAndEmptyParents id => cases h
  | snapshot => exact ⟨fun hmem => hmem, fun hmem => hmem⟩
  | _ => exact ⟨by simp [kinds], by simp [kinds]⟩

theorem GraphCommand.kinds_of_reshapes {cmd : GraphCommand R} (h : cmd.reshapes = true) :
    cmd.kinds ⊆ stagedKinds ∨ cmd.kinds ⊆ removingKinds := by
  cases cmd with
  | splitPane target direction ratio command => exact Or.inl (by simp [kinds, stagedKinds])
  | applyBatch ops => exact Or.inl subset_rfl
  | destroyPane id ev => exact Or.inr (by simp [kinds, removingKinds])
  | destroyPaneAndEmptyParents id => exact Or.inr subset_rfl
  | _ => cases h

section Commands

variable [Host] [F32 R]

/-- From every state that commands lead to, a command that moves the layout of a window
that stays bumps the panes that stay in it, unless it splits or destroys panes. -/
theorem step_refreshes (cmds : List (GraphCommand R)) (cmd : GraphCommand R) (wid : WindowId)
    (w w' : Window R)
    (hw : (SessionGraph.newWithEventBus.run cmds).state.windows.get wid = some w)
    (hw' : ((SessionGraph.newWithEventBus.run cmds).step cmd).2.state.windows.get wid = some w')
    (hmoved : w'.layout ≠ w.layout) :
    Refreshed (SessionGraph.newWithEventBus.run cmds).state
      ((SessionGraph.newWithEventBus.run cmds).step cmd).2.state wid ↔ cmd.reshapes = false := by
  obtain ⟨m, evs, hrun⟩ :=
    run_moves SessionGraph.newWithEventBus cmds fun cmd _ => Set.subset_univ cmd.kinds
  generalize (SessionGraph.newWithEventBus.run cmds : SessionGraph R) = g at hw hw' hrun ⊢
  have hsound : Sound g.drawn g.state := hrun.trace.sound sound_default
  have hpeopled : Peopled g.state := hrun.trace.peopled sound_default fun _ _ h => by cases h
  obtain ⟨n, evs', hadvances⟩ := step_moves g cmd
  constructor
  · intro hrefreshed
    by_contra hreshapes
    rw [Bool.not_eq_false] at hreshapes
    -- Some pane of the window goes through the command as it is.
    have hstill : ∃ pid p, g.state.panes.get pid = some p ∧
        (g.step cmd).2.state.panes.get pid = some p ∧ p.windowId = wid := by
      rcases GraphCommand.kinds_of_reshapes hreshapes with hkinds | hkinds
      · obtain ⟨pid, p, hp, hpw⟩ := hpeopled wid w hw
        exact ⟨pid, p, hp, hadvances.trace.keeps_panes hkinds hsound hp, hpw⟩
      · obtain ⟨pid, p, hp, hpw⟩ := hadvances.trace.peopled hsound hpeopled wid w' hw'
        exact ⟨pid, p, hadvances.trace.leaves_panes hkinds hp, hp, hpw⟩
    obtain ⟨pid, p, hp, hp', hpw⟩ := hstill
    exact lt_irrefl _ (hrefreshed pid p p hp hp' hpw hpw)
  · intro hreshapes
    obtain ⟨hsplit, hremove⟩ := GraphCommand.kinds_of_not_reshapes hreshapes
    exact hadvances.trace.refreshed hsound hsplit hremove hw hw' hmoved

end Commands

section Split

open Sample

/-- One pane, split: the window's layout moves and its first pane is what it was. -/
theorem split_not_refreshed :
    let g := SessionGraph.newWithEventBus.run [create]
    let g' := (g.step (.splitPane ⟨⟨1⟩⟩ .vertical (1 / 2) [])).2
    (∃ w w', g.state.windows.get ⟨⟨2⟩⟩ = some w ∧ g'.state.windows.get ⟨⟨2⟩⟩ = some w' ∧
      w'.layout ≠ w.layout) ∧ ¬ Refreshed g.state g'.state ⟨⟨2⟩⟩ := by
  intro g g'
  have hw : (g.state.windows.get ⟨⟨2⟩⟩).map (·.layout.tree.paneIds) = some [⟨⟨1⟩⟩] := by
    decide
  have hw' : (g'.state.windows.get ⟨⟨2⟩⟩).map (·.layout.tree.paneIds) = some [⟨⟨1⟩⟩, ⟨⟨11⟩⟩] := by
    decide
  have hp : (g.state.panes.get ⟨⟨1⟩⟩).map (fun p => (p.version, p.windowId)) = some (1, ⟨⟨2⟩⟩) := by
    decide
  have hp' : (g'.state.panes.get ⟨⟨1⟩⟩).map (fun p => (p.version, p.windowId)) =
      some (1, ⟨⟨2⟩⟩) := by
    decide
  obtain ⟨w, hget, hids⟩ := Option.map_eq_some_iff.mp hw
  obtain ⟨w', hget', hids'⟩ := Option.map_eq_some_iff.mp hw'
  obtain ⟨p, hpane, heq⟩ := Option.map_eq_some_iff.mp hp
  obtain ⟨p', hpane', heq'⟩ := Option.map_eq_some_iff.mp hp'
  refine ⟨⟨w, w', hget, hget', fun hlayout => ?_⟩, fun hrefreshed => ?_⟩
  · rw [hlayout, hids] at hids'
    cases hids'
  · have hlt := hrefreshed _ p p' hpane hpane' (congrArg Prod.snd heq) (congrArg Prod.snd heq')
    have hversion : p.version = 1 := congrArg Prod.fst heq
    have hversion' : p'.version = 1 := congrArg Prod.fst heq'
    rw [hversion, hversion'] at hlt
    exact lt_irrefl _ hlt

/-- Two panes, one zoomed. -/
theorem step_refreshes_zoom :
    let g := SessionGraph.newWithEventBus.run [create, .splitPane ⟨⟨1⟩⟩ .vertical (1 / 2) []]
    let cmd : GraphCommand ℚ := .zoomPane ⟨⟨1⟩⟩ none
    Refreshed g.state (g.step cmd).2.state ⟨⟨2⟩⟩ ↔ cmd.reshapes = false := by
  intro g cmd
  have hw : (g.state.windows.get ⟨⟨2⟩⟩).map (·.layout.isZoomed) = some false := by decide
  have hw' : ((g.step cmd).2.state.windows.get ⟨⟨2⟩⟩).map (·.layout.isZoomed) = some true := by
    decide
  obtain ⟨w, hget, hzoom⟩ := Option.map_eq_some_iff.mp hw
  obtain ⟨w', hget', hzoom'⟩ := Option.map_eq_some_iff.mp hw'
  refine step_refreshes _ _ _ w w' hget hget' fun hlayout => ?_
  rw [hlayout, hzoom] at hzoom'
  cases hzoom'

end Split

end Shux
