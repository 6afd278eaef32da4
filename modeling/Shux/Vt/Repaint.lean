/-
# No cell changes without a mark

A renderer asks for the dirty regions, paints, and asks again. Whatever happened between
the two requests, each cell of the presented viewport that is not what it was lies in a
region of the second answer. Live operations mark what they write. What cannot be followed
cell by cell, a switch of screens, the end of a window, a resize or a full reset, marks the
whole frame.
-/

import Shux.Vt.Frame

namespace Shux.Vt

open Checked Handler GridConfig

namespace Terminal

variable {t : Terminal} {cells : Nat → Nat → Option Cell}

/-- Tracking is on everywhere, and every presented cell that differs from `cells` is marked. -/
structure Tracked (cells : Nat → Nat → Option Cell) (t : Terminal) : Prop where
  ok : t.Ok
  live : t.grid.config.trackDirty = true
  stash : ∀ g, t.altGrid = some g → g.config.trackDirty = true
  frozen : ∀ frozen, t.frozenGrid = some frozen → frozen.grid.config.trackDirty = true
  marks : ∀ r c, r < t.rows → ((t.shown.1[r]?).bind fun row => row.cells[c]?) ≠ cells r c →
    t.shown.2.Marks r c

namespace Tracked

/-- Nothing shown has changed. -/
theorem of_shown {t' : Terminal} (h : Tracked cells t) (hok : t'.Ok)
    (hlive : t'.grid.config.trackDirty = true)
    (hstash : ∀ g, t'.altGrid = some g → g.config.trackDirty = true)
    (hfrozen : ∀ frozen, t'.frozenGrid = some frozen → frozen.grid.config.trackDirty = true)
    (hrows : t'.rows = t.rows) (hshown : t'.shown = t.shown) : Tracked cells t' := by
  refine ⟨hok, hlive, hstash, hfrozen, ?_⟩
  rw [hrows, hshown]
  exact h.marks

/-- A whole-frame mark covers whatever changed. -/
theorem of_marked (hok : t.Ok) (hlive : t.grid.config.trackDirty = true)
    (hstash : ∀ g, t.altGrid = some g → g.config.trackDirty = true)
    (hfrozen : t.frozenGrid = none) (hmarked : ∀ r c, t.grid.dirty.Marks r c) :
    Tracked cells t := by
  refine ⟨hok, hlive, hstash, fun frozen hsome => ?_, fun r c _ _ => ?_⟩
  · cases hfrozen.symm.trans hsome
  · unfold shown
    rw [hfrozen]
    exact hmarked r c

theorem marks_markAllDirty {g : Grid} (h : g.Ok) (htrack : g.config.trackDirty = true) (r c : Nat) :
    g.markAllDirty.dirty.Marks r c :=
  DirtyState.marks_markAll (h.enabled.trans htrack) r c

section

variable (h : Tracked cells t)
include h

theorem freezeTracks {touched : Bool} {frozen : FrozenScreen}
    (hsome : freezeSlot touched t.frozenGrid (.snapshot t.grid) = some frozen) :
    frozen.grid.config.trackDirty = true := by
  rcases freezeSlot_some hsome with hold | rfl
  · exact h.frozen frozen hold
  · exact h.live

theorem freeze (touched : Touched) : Tracked cells (t.freeze touched) := by
  refine h.of_shown (h.ok.freeze touched) ?_ ?_ ?_ ?_ (h.ok.shown_freeze touched)
  · rw [freeze_eq]
    exact h.live
  · rw [freeze_eq]
    exact h.stash
  · intro frozen hsome
    rw [freeze_eq] at hsome
    dsimp only at hsome
    split at hsome
    · exact h.freezeTracks hsome
    · exact h.frozen frozen hsome
  · rw [freeze_eq]

theorem freezeAltFlag : Tracked cells t.freezeAltFlag := by
  have hok := h.ok.freezeAltFlag
  rw [freezeAltFlag_eq] at hok ⊢
  exact h.of_shown hok h.live h.stash h.frozen rfl rfl

theorem freezeForSwitch : Tracked cells t.freezeForSwitch := (h.freeze _).freezeAltFlag

theorem freezeWholePresentation : Tracked cells t.freezeWholePresentation :=
  (h.freeze _).freezeAltFlag

/-- The live grid may evolve while nothing is frozen. -/
theorem setScreen (hnone : t.frozenGrid = none) {h' : Handler}
    (hadv : Advances ⟨t.toScreen, .nothing⟩ h') :
    Tracked cells { t with toScreen := h'.toScreen } := by
  refine ⟨h.ok.setScreen hadv, ?_, h.stash, h.frozen, ?_⟩
  · exact (congrArg trackDirty hadv.evolves.config).trans h.live
  · intro r c hr hne
    have hmarks := h.marks r c hr
    unfold shown at hmarks hne ⊢
    dsimp only at hne ⊢
    rw [hnone] at hmarks hne ⊢
    by_cases hsame : h'.grid.cellAt r c = t.grid.cellAt r c
    · have henabled := h.ok.screen.grid.enabled.trans h.live
      refine hadv.evolves.keeps.marks henabled r c (hmarks ?_)
      rw [Grid.cellAt_eq_viewport, Grid.cellAt_eq_viewport] at hsame
      exact fun heq => hne (hsame.trans heq)
    · exact hadv.evolves.covers h.live r c (h.ok.rows.symm ▸ hr) hsame

theorem commit {h' : Handler} (hadv : Advances ⟨t.toScreen, .nothing⟩ h') :
    Tracked cells (t.commit h') := by
  cases harmed : t.syncArmed with
  | false =>
    rw [commit_unarmed harmed]
    exact h.setScreen (h.ok.unarmed harmed).1 hadv
  | true =>
    have hfreeze := h.freeze h'.touched
    refine h.of_shown (h.ok.commit hadv) ?_ ?_ ?_ ?_ (h.ok.shown_commit harmed hadv)
    · exact (congrArg trackDirty hadv.evolves.config).trans h.live
    · exact hfreeze.stash
    · exact hfreeze.frozen
    · unfold Terminal.commit
      rw [freeze_eq]

theorem entered (hsealed : t.syncArmed = true → t.Sealed) (parks : Bool) :
    Tracked cells (t.entered parks) := by
  have hok := h.ok.entered parks
  have hcanvas : (t.altCanvas.markAllDirty).config.trackDirty = true := by
    rw [altCanvas_markAllDirty h.ok.spare]
    rfl
  have hstash : ∀ g, (t.entered parks).altGrid = some g → g.config.trackDirty = true := by
    rw [entered_eq]
    intro g hg
    cases hg
    exact h.live
  rw [entered_eq] at hok hstash ⊢
  rcases Bool.eq_false_or_eq_true t.syncArmed with harmed | harmed
  · obtain ⟨frozen, hsome⟩ := Option.isSome_iff_exists.mp (hsealed harmed).grid
    refine h.of_shown hok hcanvas hstash h.frozen rfl ?_
    unfold shown
    dsimp only
    rw [hsome]
    rfl
  · apply of_marked hok hcanvas hstash (h.ok.unarmed harmed).1
    intro r c
    show t.altCanvas.markAllDirty.dirty.Marks r c
    rw [altCanvas_markAllDirty h.ok.spare]
    exact marks_markAllDirty (Grid.ok_new _ _ _) rfl r c

theorem left (halt : t.modes.alternateScreen = true)
    (hsealed : t.syncArmed = true → t.Sealed) (parks : Bool) : Tracked cells (t.left parks) := by
  obtain ⟨primary, hprimary⟩ := h.ok.exists_parked halt
  have hok := h.ok.left halt parks
  have hlive := h.stash primary hprimary
  rw [left_eq hprimary] at hok ⊢
  have hnone : ∀ g : Grid, none = some g → g.config.trackDirty = true := by
    intro g hg
    cases hg
  rcases Bool.eq_false_or_eq_true t.syncArmed with harmed | harmed
  · obtain ⟨frozen, hsome⟩ := Option.isSome_iff_exists.mp (hsealed harmed).grid
    refine h.of_shown hok hlive hnone h.frozen rfl ?_
    unfold shown
    dsimp only
    rw [hsome]
    rfl
  · exact of_marked hok hlive hnone (h.ok.unarmed harmed).1
      (marks_markAllDirty (h.ok.stash primary hprimary).ok hlive)

theorem arm : Tracked cells { t with syncArmed := true } :=
  h.of_shown h.ok.arm h.live h.stash h.frozen rfl rfl

theorem setSyncMode (on : Bool) : Tracked cells (t.setSyncMode on) :=
  h.of_shown (h.ok.setSyncMode on) h.live h.stash h.frozen rfl rfl

/-- The live frame, marked all over. -/
theorem markAllDirty (hnone : t.frozenGrid = none) : Tracked cells t.markAllDirty :=
  of_marked h.ok.markAllDirty h.live h.stash hnone (marks_markAllDirty h.ok.screen.grid h.live)

theorem hold : Tracked cells (t.setSynchronizedOutput true) := by
  have hmarked harmed := (h.markAllDirty (h.ok.unarmed harmed).1).arm
  exact hold_cases (fun _ => h.setSyncMode true)
    (fun harmed => (hmarked harmed).freezeWholePresentation.setSyncMode true)
    fun harmed => (hmarked harmed).setSyncMode true

theorem release : Tracked cells (t.setSynchronizedOutput false) :=
  of_marked h.ok.release h.live h.stash rfl (marks_markAllDirty h.ok.screen.grid h.live)

theorem forceReleaseSync : Tracked cells t.forceReleaseSync :=
  of_marked h.ok.forceReleaseSync h.live h.stash rfl (marks_markAllDirty h.ok.screen.grid h.live)

/-- Bookkeeping marks nothing. -/
theorem stamped (syncOpenedNs syncBytes contentRevision : Nat) (syncHiddenClassA : Bool) :
    Tracked cells { t with syncOpenedNs, syncBytes, contentRevision, syncHiddenClassA } :=
  h.of_shown (h.ok.stamped _ _ _ _ _) h.live h.stash h.frozen rfl rfl

end

end Tracked

theorem preserves_tracked (cells : Nat → Nat → Option Cell) :
    Preserves (· ≠ .reset) (Tracked cells) where
  ok h := h.ok.screen
  balanced h := h.ok.balanced
  parked h := h.ok.parked
  commit h hadv := h.commit hadv
  sink h hsink := h.of_shown (h.ok.sink hsink) h.live h.stash h.frozen rfl rfl
  enter {t} parks _ _ h :=
    h.freezeForSwitch.entered
      (fun harmed => sealed_freezeForSwitch (t.syncArmed_freezeForSwitch.symm.trans harmed)) parks
  leave {t} parks _ halt h :=
    h.freezeForSwitch.left (t.alternate_freezeForSwitch.trans halt)
      (fun harmed => sealed_freezeForSwitch (t.syncArmed_freezeForSwitch.symm.trans harmed)) parks
  hold _ h := h.hold
  release _ h := h.release
  rewind hfalse _ := absurd rfl hfalse

theorem marks_unplaceAll {g : Grid} {r c : Nat} (h : g.dirty.Marks r c) :
    g.unplaceAll.dirty.Marks r c := by
  unfold Grid.unplaceAll
  split <;> exact h

section

variable (h : Tracked cells t)
include h

/-- A full reset ends in a frame that is marked all over. -/
theorem Tracked.fullReset : Runs t.fullReset (Tracked cells) := by
  have hrewind := h.ok.rewind
  obtain ⟨⟨hoff, -⟩, heq⟩ := fullReset_eq h.ok.parked
  obtain ⟨t', ht', -, -, -, hok⟩ := (preserves_ok.mirrors.echoes.reset trivial ⟨rfl, h.ok⟩).left
  have htrack : t.rewind.grid.config.trackDirty = true ∧
      ∀ g, t.rewind.altGrid = some g → g.config.trackDirty = true := by
    unfold rewind
    dsimp only
    split
    · next halt =>
      obtain ⟨primary, hprimary⟩ := h.ok.releaseSyncPresentation.exists_parked halt
      rw [left_eq hprimary]
      exact ⟨h.stash primary hprimary, fun g hg => by cases hg⟩
    · exact ⟨h.live, h.stash⟩
  obtain ⟨grid, hgrid, hevolves⟩ := hrewind.screen.grid.clearVisible .default
  have hmarked : ∀ r c, grid.clearScrollback.markAllDirty.unplaceAll.dirty.Marks r c := by
    intro r c
    have hcleared := hevolves.ok.clearScrollback
    refine marks_unplaceAll (Tracked.marks_markAllDirty hcleared.ok ?_ r c)
    rw [hcleared.config, hevolves.config]
    exact htrack.1
  have hconfig : grid.clearScrollback.markAllDirty.unplaceAll.config = t.rewind.grid.config := by
    unfold Grid.unplaceAll
    split <;> exact hevolves.config
  rw [ht']
  apply Runs.some
  rw [heq, onScreen_resetAll hoff, hgrid] at ht'
  cases ht'
  refine Tracked.of_marked hok ?_ htrack.2 (hrewind.unarmed hoff).1 hmarked
  exact (congrArg trackDirty hconfig).trans htrack.1

theorem Tracked.clearActive : Tracked cells { t with activeGraphemeCell := none } :=
  h.of_shown h.ok.clearActive h.live h.stash h.frozen rfl rfl

theorem Tracked.enterAlternateScreen : Tracked cells t.enterAlternateScreen := by
  have hcleared := h.freezeWholePresentation.clearActive
  unfold Terminal.enterAlternateScreen
  dsimp only
  split
  · exact hcleared
  · exact hcleared.entered sealed_clearActive true

theorem Tracked.leaveAlternateScreen : Tracked cells t.leaveAlternateScreen := by
  have hcleared := h.freezeWholePresentation.clearActive
  unfold Terminal.leaveAlternateScreen
  dsimp only
  split
  · next halt => exact hcleared.left halt sealed_clearActive true
  · exact hcleared

theorem Tracked.releaseExpiredSync (now : Nat) : Tracked cells (t.releaseExpiredSync now).1 := by
  unfold Terminal.releaseExpiredSync
  split
  · dsimp only
    split <;> exact h.forceReleaseSync.stamped _ _ _ _
  · exact h

theorem Tracked.resizeStart (changed : Bool) : Tracked cells (t.resizeStart changed) := by
  have hok := h.ok.resizeStart changed
  have hmarked := h.forceReleaseSync
  unfold Terminal.resizeStart at hok ⊢
  dsimp only at hok ⊢
  split at hok
  · next hreleased =>
    rw [if_pos hreleased]
    exact hmarked.of_shown hok hmarked.live hmarked.stash hmarked.frozen rfl rfl
  · next hkept =>
    rw [if_neg hkept]
    exact h.of_shown hok h.live h.stash h.frozen rfl rfl

theorem Tracked.resize (rows cols : Nat) : Runs (t.resize rows cols) (Tracked cells) := by
  have hstart := h.resizeStart (t.resizes (max rows 1) (max cols 1))
  obtain ⟨t', ht', hok⟩ := h.ok.resize rows cols
  obtain ⟨grid, cursor, altGrid, altCursor, heq, hrelined, -, -, hstash⟩ :=
    hstart.ok.resizeScreens (le_max_right rows 1) (le_max_right cols 1)
  have hsame := hstart.ok.same_of_resizeScreens (heq _ rfl rfl rfl)
  rw [ht']
  apply Runs.some
  rw [resize_eq, heq _ rfl rfl rfl] at ht'
  cases ht'
  have hlive : grid.config.trackDirty = true :=
    (congrArg trackDirty hrelined.config).trans hstart.live
  have hparked : ∀ g, altGrid = some g → g.config.trackDirty = true := by
    intro g hg
    obtain ⟨g₀, hg₀, hrelined'⟩ := hstash g hg
    exact (congrArg trackDirty hrelined'.config).trans (hstart.stash g₀ hg₀)
  cases hchanged : t.resizes (max rows 1) (max cols 1) with
  | true =>
    rw [hchanged] at hok hrelined hstart
    refine .of_marked hok hlive hparked (hok.unarmed t.resizeStart_unarmed).1 fun r c => .inl ?_
    refine hrelined.marks hstart.live ?_
    obtain ⟨hrows, hcols⟩ := t.size_resizeStart true
    rw [hstart.ok.rows, hstart.ok.cols, hrows, hcols]
    have hne : ¬(max rows 1 = t.rows ∧ max cols 1 = t.cols) := by
      rw [← resizes_eq_false, hchanged]
      decide
    omega
  | false =>
    rw [hchanged] at hok hstart hsame
    obtain ⟨hrows, hcols⟩ := resizes_eq_false.mp hchanged
    obtain ⟨rfl, rfl⟩ := hsame hrows hcols
    exact hstart.of_shown hok hlive hparked hstart.frozen hrows rfl

theorem Tracked.releaseOverfull : Tracked cells t.releaseOverfull := by
  unfold Terminal.releaseOverfull
  split
  · exact h.forceReleaseSync
  · exact h

theorem Tracked.batched (before : Terminal) (len now : Nat) :
    Tracked cells ((recordBatch before t).stampSync len now) := by
  rw [recordBatch_eq]
  unfold stampSync
  split
  · exact h.stamped _ _ _ _
  · exact h.stamped _ _ _ _

end

variable [Crates]

theorem Tracked.step (h : Tracked cells t) (s : Step) :
    Runs (t.step s) fun out => Tracked cells out.1 := by
  cases s with
  | process len now calls =>
    have hbefore := h.releaseOverfull
    have hstart : Tracked cells { t.releaseOverfull with responses := [] } :=
      hbefore.of_shown hbefore.ok.clearResponses hbefore.live hbefore.stash hbefore.frozen rfl rfl
    apply Runs.bind ((preserves_tracked cells).callsResetting (fun h => h.fullReset) hstart calls)
    exact fun after hafter => .pure (hafter.batched _ len now)
  | resize rows cols =>
    apply Runs.bind (h.resize rows cols)
    exact fun t' ht' => .pure ht'
  | enterAlternateScreen => exact .pure h.enterAlternateScreen
  | leaveAlternateScreen => exact .pure h.leaveAlternateScreen
  | releaseExpiredSync now => exact .pure (h.releaseExpiredSync now)

theorem Tracked.run (h : Tracked cells t) (ss : List Step) :
    Runs (t.run (ss.map .step)) (Tracked cells) := by
  apply Runs.each (Tracked cells) h
  intro event hevent t' ht'
  obtain ⟨s, -, rfl⟩ := List.mem_map.mp hevent
  apply Runs.bind (ht'.step s)
  exact fun out hout => .pure hout

section

omit [Crates]

/-- The presented grid has the size of the terminal. -/
theorem Ok.presentedGrid (h : t.Ok) : t.presentedGrid.Shaped t.rows t.cols := by
  unfold Terminal.presentedGrid
  cases hfrozen : t.frozenGrid with
  | none => exact h.grid
  | some frozen => exact h.frozenGrid frozen hfrozen

/-- What a request for the dirty regions does. -/
theorem takeDirtyRegions_spec (t : Terminal) :
    t.takeDirtyRegions.2 =
        (t.presentedGrid.dirty.take t.presentedGrid.rows t.presentedGrid.cols).2 ∧
      t.takeDirtyRegions.1.shown.1 = t.shown.1 := by
  unfold takeDirtyRegions presentedGrid shown slotShown
  cases t.frozenGrid <;> exact ⟨rfl, rfl⟩

theorem shown_dirty (t : Terminal) : t.shown.2 = t.presentedGrid.dirty := by
  unfold presentedGrid shown slotShown
  cases t.frozenGrid <;> rfl

theorem Tracked.presented (h : Tracked cells t) : t.presentedGrid.config.trackDirty = true := by
  unfold Terminal.presentedGrid
  cases hfrozen : t.frozenGrid with
  | none => exact h.live
  | some frozen => exact h.frozen frozen hfrozen

end

/-- The presented cells. -/
def cellsOf (t : Terminal) (r c : Nat) : Option Cell :=
  (t.shown.1[r]?).bind fun row => row.cells[c]?

section

omit [Crates]

theorem cellsOf_eq (t : Terminal) : t.cellsOf = t.presentedGrid.cellAt := by
  funext r c
  rw [Grid.cellAt_eq_viewport]
  rfl

/-- A request starts the tracking over. -/
theorem Tracked.takeDirtyRegions (h : Tracked cells t) :
    Tracked t.takeDirtyRegions.1.cellsOf t.takeDirtyRegions.1 := by
  refine ⟨h.ok.takeDirtyRegions, ?_, ?_, ?_, fun r c _ hne => absurd rfl hne⟩
  · unfold Terminal.takeDirtyRegions
    split <;> exact h.live
  · unfold Terminal.takeDirtyRegions
    split <;> exact h.stash
  · unfold Terminal.takeDirtyRegions
    split
    · next frozen hfrozen =>
      intro frozen' hsome
      cases hsome
      exact h.frozen frozen hfrozen
    · exact h.frozen

theorem Tracked.clearScrollback (h : Tracked cells t) : Tracked cells t.clearScrollback := by
  cases hfrozen : t.frozenGrid with
  | none => exact h.setScreen hfrozen h.ok.advances_clearScrollback
  | some frozen =>
    refine h.of_shown h.ok.clearScrollback h.live h.stash h.frozen rfl ?_
    unfold shown
    rw [show t.clearScrollback.frozenGrid = some frozen from hfrozen, hfrozen]
    rfl

end

/-- Tracking is sound in every run. -/
theorem tracked_run {rows cols : Nat} {config : GridConfig} (htrack : config.trackDirty = true)
    (events : List Event) :
    Runs ((withConfig rows cols config).run events) fun t => ∃ cells, Tracked cells t := by
  have hstart : Tracked (withConfig rows cols config).cellsOf (withConfig rows cols config) := by
    refine ⟨ok_withConfig rows cols config, htrack, ?_, ?_, fun r c _ hne => absurd rfl hne⟩
    · intro g hg
      cases hg
    · intro frozen hfrozen
      cases hfrozen
  apply Runs.each (fun t => ∃ cells, Tracked cells t) ⟨_, hstart⟩
  rintro event - t' ⟨cells, h⟩
  cases event with
  | step s =>
    apply Runs.bind (h.step s)
    exact fun out hout => .pure ⟨cells, hout⟩
  | takeDirtyRegions => exact .pure ⟨_, h.takeDirtyRegions⟩
  | clearScrollback => exact .pure ⟨cells, h.clearScrollback⟩

/-- Between two requests for dirty regions, every presented cell that changed is in a region
of the second answer; its regions are inside the viewport, at most one to a row. -/
theorem run_repaint (rows cols : Nat) (config : GridConfig) (htrack : config.trackDirty = true)
    (events : List Event) (ss : List Step) :
    ∃ t₁ t₂, (withConfig rows cols config).run events = some t₁ ∧
      t₁.takeDirtyRegions.1.run (ss.map .step) = some t₂ ∧
      (∀ r c, r < t₂.rows → c < t₂.cols →
        t₂.presentedGrid.cellAt r c ≠ t₁.presentedGrid.cellAt r c →
        ∃ region ∈ t₂.takeDirtyRegions.2, region.row = r ∧ region.start ≤ c ∧ c < region.stop) ∧
      (∀ region ∈ t₂.takeDirtyRegions.2,
        region.row < t₂.rows ∧ region.start < region.stop ∧ region.stop ≤ t₂.cols) ∧
      (t₂.takeDirtyRegions.2.map DirtyRegion.row).Nodup := by
  obtain ⟨t₁, ht₁, cells, h₁⟩ := tracked_run htrack events
  obtain ⟨t₂, ht₂, h₂⟩ := h₁.takeDirtyRegions.run ss
  obtain ⟨hregions, -⟩ := t₂.takeDirtyRegions_spec
  have hshape := h₂.ok.presentedGrid
  refine ⟨t₁, t₂, ht₁, ht₂, ?_, ?_, ?_⟩
  · intro r c hr hc hne
    rw [hregions]
    have hmarks := h₂.marks r c hr
    have hcells : t₁.takeDirtyRegions.1.cellsOf = t₁.presentedGrid.cellAt := by
      rw [← cellsOf_eq]
      unfold cellsOf
      rw [t₁.takeDirtyRegions_spec.2]
    rw [← hcells, ← cellsOf_eq] at hne
    have hmarked : t₂.presentedGrid.dirty.Marks r c := by
      rw [← shown_dirty]
      exact hmarks hne
    have henabled := hshape.ok.enabled.trans h₂.presented
    rw [← hshape.rows] at hr
    rw [← hshape.cols] at hc
    exact hshape.ok.dirty.covers_take henabled hr hc hmarked
  · intro region hregion
    rw [hregions] at hregion
    have hbounds := DirtyState.bounds_take hregion
    rwa [hshape.rows, hshape.cols] at hbounds
  · rw [hregions]
    exact DirtyState.nodup_take _ _ _

omit [Crates] in
theorem run_repaint_print :
    GridConfig.default.trackDirty = true ∧
      ∃ t₁ t₂, @run plainCrates (withConfig 2 3 .default) [] = some t₁ ∧
        @run plainCrates t₁.takeDirtyRegions.1 [.step (.process 1 1 [.print 'a'])] = some t₂ ∧
        (∀ r c, r < t₂.rows → c < t₂.cols →
          t₂.presentedGrid.cellAt r c ≠ t₁.presentedGrid.cellAt r c →
          ∃ region ∈ t₂.takeDirtyRegions.2,
            region.row = r ∧ region.start ≤ c ∧ c < region.stop) ∧
        (∀ region ∈ t₂.takeDirtyRegions.2,
          region.row < t₂.rows ∧ region.start < region.stop ∧ region.stop ≤ t₂.cols) ∧
        (t₂.takeDirtyRegions.2.map DirtyRegion.row).Nodup :=
  ⟨rfl, @run_repaint plainCrates 2 3 .default rfl [] [.process 1 1 [.print 'a']]⟩

end Terminal

end Shux.Vt
