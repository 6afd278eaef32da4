/-
# How much history a screen keeps

The live grid is meant to hold its viewport and at most the configured history, and the
alternate screen no history at all. Scrolling and reflowing evict what is over the cap. A
resize without reflow does not: it keeps every line above the last one that is not blank,
and so a smaller height can leave more lines than the cap allows. In a run in which no
resize does that, the cap holds in every state.
-/

import Shux.Vt.Geometry

namespace Shux.Vt

open Checked Handler

namespace Grid

variable {g g' : Grid} {newRows newCols : Nat}

/-- The grid holds no more lines than its viewport and its history. -/
def Within (g : Grid) : Prop := g.raw.length ≤ g.rows + g.config.maxScrollback

/-- Whether a resize leaves room: it reflows, or the lines that are left when the blank
ones at the bottom are gone are within the cap. -/
def fits (g : Grid) (reflows : Bool) (newRows newCols : Nat) : Bool :=
  (reflows && newCols != g.cols) || (g.canvasLines newRows newCols).all fun kept =>
    decide (kept.length ≤ newRows + g.config.maxScrollback)

theorem within_new (rows cols : Nat) (config : GridConfig) : (new rows cols config).Within := by
  unfold Within new
  rw [List.length_replicate]
  exact Nat.le_add_right _ _

theorem Within.evolves (h : g.Within) (hevolves : Evolves g g') : g'.Within := by
  unfold Within at *
  rw [hevolves.rows, hevolves.config]
  exact hevolves.bound.trans (max_le h le_rfl)

theorem Relined.within {reflows : Bool} (h : Relined reflows g newRows newCols g')
    (hfits : g.fits reflows newRows newCols = true) : g'.Within := by
  unfold Within
  rw [h.rows, h.config]
  rcases h.lines with hbound | ⟨hcols, kept, hkept, hlen⟩
  · exact hbound
  · have hsame : (reflows && newCols != g.cols) = false := by
      cases reflows with
      | false => rfl
      | true =>
        rw [hcols rfl]
        simp
    rw [fits, hsame, hkept, Bool.false_or, Option.all_some, decide_eq_true_iff] at hfits
    rw [hlen]
    exact max_le (Nat.le_add_right _ _) hfits

theorem canvasLines_markAllDirty (g : Grid) (newRows newCols : Nat) :
    g.markAllDirty.canvasLines newRows newCols = g.canvasLines newRows newCols := by
  unfold canvasLines resizeCols markAllDirty
  dsimp only
  split
  · rfl
  · cases g.raw.mapM fun row => (row.resize newCols .empty).sanitizeWidePairs .default <;> rfl

theorem fits_markAllDirty (g : Grid) (reflows : Bool) (newRows newCols : Nat) :
    g.markAllDirty.fits reflows newRows newCols = g.fits reflows newRows newCols := by
  unfold fits
  rw [canvasLines_markAllDirty]
  rfl

end Grid

namespace Terminal

variable {t : Terminal} {config : GridConfig}

/-- Both screens keep to their caps; the primary one has the history it was given. -/
structure Bounded (config : GridConfig) (t : Terminal) : Prop where
  live : t.grid.Within
  stash : ∀ g, t.altGrid = some g → g.Within
  liveConfig : t.modes.alternateScreen = false → t.grid.config = config
  stashConfig : ∀ g, t.altGrid = some g → g.config = config

namespace Bounded

theorem setScreen (h : Bounded config t) {h' : Handler}
    (hadv : Advances ⟨t.toScreen, .nothing⟩ h') :
    Bounded config { t with toScreen := h'.toScreen } where
  live := h.live.evolves hadv.evolves
  stash := h.stash
  liveConfig hprimary :=
    hadv.evolves.config.trans (h.liveConfig (hadv.alternate.symm.trans hprimary))
  stashConfig := h.stashConfig

/-- What is frozen does not matter. -/
theorem of_same {t' : Terminal} (h : Bounded config t) (hscreen : t'.toScreen = t.toScreen)
    (hstash : t'.altGrid = t.altGrid) : Bounded config t' :=
  ⟨hscreen ▸ h.live, hstash ▸ h.stash, hscreen ▸ h.liveConfig, hstash ▸ h.stashConfig⟩

theorem commit (h : Bounded config t) {h' : Handler} (hadv : Advances ⟨t.toScreen, .nothing⟩ h') :
    Bounded config (t.commit h') := by
  refine (h.setScreen hadv).of_same rfl ?_
  rw [Terminal.commit, freeze_eq]

theorem freezeForSwitch (h : Bounded config t) : Bounded config t.freezeForSwitch := by
  unfold Terminal.freezeForSwitch freezeForSwap
  rw [freezeAltFlag_eq, freeze_eq]
  exact h.of_same rfl rfl

theorem entered (hok : t.Ok) (h : Bounded config t) (hprimary : t.modes.alternateScreen = false)
    (parks : Bool) : Bounded config (t.entered parks) := by
  rw [entered_eq]
  refine ⟨?_, ?_, fun hfalse => Bool.noConfusion hfalse, ?_⟩
  · show t.altCanvas.markAllDirty.Within
    rw [altCanvas_markAllDirty hok.spare]
    exact (Grid.within_new _ _ _).evolves (Grid.ok_new _ _ _).markAllDirty
  · intro g hg
    cases hg
    exact h.live
  · intro g hg
    cases hg
    exact h.liveConfig hprimary

theorem left (hok : t.Ok) (h : Bounded config t) (halt : t.modes.alternateScreen = true)
    (parks : Bool) : Bounded config (t.left parks) := by
  obtain ⟨primary, hprimary⟩ := hok.exists_parked halt
  have hmarked := (hok.stash primary hprimary).ok.markAllDirty
  rw [left_eq hprimary]
  refine ⟨(h.stash primary hprimary).evolves hmarked, ?_,
    fun _ => h.stashConfig primary hprimary, ?_⟩
  · intro g hg
    cases hg
  · intro g hg
    cases hg

theorem markAllDirty (hok : t.Ok) (h : Bounded config t) : Bounded config t.markAllDirty := by
  have hadv : Advances ⟨t.toScreen, .nothing⟩
      (Handler.setGrid ⟨t.toScreen, .nothing⟩ t.grid.markAllDirty) :=
    (hok.screen.setGrid hok.screen.grid.markAllDirty).toAdvances
  exact h.setScreen hadv

theorem hold (hok : t.Ok) (h : Bounded config t) :
    Bounded config (t.setSynchronizedOutput true) := by
  have hmarked := h.markAllDirty hok
  refine hold_cases (fun _ => ⟨h.live, h.stash, h.liveConfig, h.stashConfig⟩) (fun _ => ?_)
    fun _ => ⟨hmarked.live, hmarked.stash, hmarked.liveConfig, hmarked.stashConfig⟩
  unfold freezeWholePresentation
  rw [freezeAltFlag_eq, freeze_eq]
  exact ⟨hmarked.live, hmarked.stash, hmarked.liveConfig, hmarked.stashConfig⟩

theorem release (hok : t.Ok) (h : Bounded config t) :
    Bounded config (t.setSynchronizedOutput false) := by
  have hmarked := h.markAllDirty hok
  exact ⟨hmarked.live, hmarked.stash, hmarked.liveConfig, hmarked.stashConfig⟩

theorem rewind (hok : t.Ok) (h : Bounded config t) : Bounded config t.rewind := by
  have hreleased : Bounded config t.releaseSyncPresentation := h.of_same rfl rfl
  unfold Terminal.rewind
  dsimp only
  split
  · next halt => exact left hok.releaseSyncPresentation hreleased halt false
  · exact hreleased

end Bounded

theorem preserves_bounded (config : GridConfig) :
    Preserves (fun _ => True) fun t => t.Ok ∧ Bounded config t := by
  apply preserves_ok.and
  · exact fun _ h hadv => h.commit hadv
  · exact fun _ h _ => h.of_same rfl rfl
  · intro t parks _ hprimary hok h
    exact h.freezeForSwitch.entered (hok.freeze _).freezeAltFlag
      (t.alternate_freezeForSwitch.trans hprimary) parks
  · intro t parks _ halt hok h
    exact h.freezeForSwitch.left (hok.freeze _).freezeAltFlag
      (t.alternate_freezeForSwitch.trans halt) parks
  · exact fun _ hok h => h.hold hok
  · exact fun _ hok h => h.release hok
  · exact fun _ hok h => h.rewind hok

/-- Whether a resize leaves room on both screens. Only the primary one reflows. -/
def resizeFits (t : Terminal) (rows cols : Nat) : Bool :=
  t.grid.fits (!t.modes.alternateScreen) rows cols &&
    t.altGrid.all fun primary => primary.fits true rows cols

/-- Only the repaint mark of a release tells the screens apart. -/
theorem resizeStart_screens (t : Terminal) (changed : Bool) :
    ((t.resizeStart changed).grid = t.grid ∨ (t.resizeStart changed).grid = t.grid.markAllDirty) ∧
      (t.resizeStart changed).modes.alternateScreen = t.modes.alternateScreen ∧
      (t.resizeStart changed).altGrid = t.altGrid := by
  unfold resizeStart
  dsimp only
  split
  · exact ⟨.inr rfl, rfl, rfl⟩
  · exact ⟨.inl rfl, rfl, rfl⟩

theorem resizeFits_resizeStart (t : Terminal) (changed : Bool) (rows cols : Nat) :
    (t.resizeStart changed).resizeFits rows cols = t.resizeFits rows cols := by
  obtain ⟨hgrid, halt, hstash⟩ := t.resizeStart_screens changed
  unfold resizeFits
  rw [halt, hstash]
  rcases hgrid with hgrid | hgrid
  · rw [hgrid]
  · rw [hgrid, Grid.fits_markAllDirty]

theorem Bounded.resizeStart (hok : t.Ok) (h : Bounded config t) (changed : Bool) :
    Bounded config (t.resizeStart changed) := by
  have hmarked := h.markAllDirty hok
  unfold Terminal.resizeStart
  dsimp only
  split
  · exact ⟨hmarked.live, hmarked.stash, hmarked.liveConfig, hmarked.stashConfig⟩
  · exact ⟨h.live, h.stash, h.liveConfig, h.stashConfig⟩

theorem Bounded.resize (hok : t.Ok) (h : Bounded config t) {rows cols : Nat}
    (hfits : t.resizeFits (max rows 1) (max cols 1) = true) :
    Runs (t.resize rows cols) (Bounded config) := by
  have hstart := hok.resizeStart (t.resizes (max rows 1) (max cols 1))
  have hbounded := h.resizeStart hok (t.resizes (max rows 1) (max cols 1))
  rw [← resizeFits_resizeStart t (t.resizes (max rows 1) (max cols 1))] at hfits
  obtain ⟨grid, cursor, altGrid, altCursor, heq, hrelined, -, -, hstash⟩ :=
    hstart.resizeScreens (le_max_right rows 1) (le_max_right cols 1)
  rw [resize_eq, heq _ rfl rfl rfl]
  apply Runs.some
  unfold resizeFits at hfits
  rw [Bool.and_eq_true] at hfits
  obtain ⟨hlive, hparked⟩ := hfits
  have hend : Bounded config { t.resizeStart (t.resizes (max rows 1) (max cols 1)) with
      grid, cursor, altGrid, altCursor } := by
    refine ⟨hrelined.within hlive, ?_, fun hprimary => ?_, ?_⟩
    · intro stash hsome
      obtain ⟨g, hg, hrelined'⟩ := hstash stash hsome
      rw [hg] at hparked
      exact hrelined'.within hparked
    · exact hrelined.config.trans (hbounded.liveConfig hprimary)
    · intro stash hsome
      obtain ⟨g, hg, hrelined'⟩ := hstash stash hsome
      exact hrelined'.config.trans (hbounded.stashConfig g hg)
  unfold Terminal.resizeEnd
  dsimp only
  split <;> exact ⟨hend.live, hend.stash, hend.liveConfig, hend.stashConfig⟩

theorem bounded_withConfig (rows cols : Nat) (config : GridConfig) :
    Bounded config (withConfig rows cols config) := by
  refine ⟨Grid.within_new _ _ _, ?_, fun _ => rfl, ?_⟩
  · intro g hg
    cases hg
  · intro g hg
    cases hg

theorem Bounded.forceReleaseSync (hok : t.Ok) (h : Bounded config t) :
    Bounded config t.forceReleaseSync := by
  have hmarked := h.markAllDirty hok
  exact ⟨hmarked.live, hmarked.stash, hmarked.liveConfig, hmarked.stashConfig⟩

theorem Bounded.releaseExpiredSync (hok : t.Ok) (h : Bounded config t) (now : Nat) :
    Bounded config (t.releaseExpiredSync now).1 := by
  have hreleased := h.forceReleaseSync hok
  unfold Terminal.releaseExpiredSync
  split
  · dsimp only
    split <;> exact hreleased.of_same rfl rfl
  · exact h

theorem Bounded.freezeWholePresentation (h : Bounded config t) :
    Bounded config { t.freezeWholePresentation with activeGraphemeCell := none } := by
  unfold Terminal.freezeWholePresentation
  rw [freezeAltFlag_eq, freeze_eq]
  exact ⟨h.live, h.stash, h.liveConfig, h.stashConfig⟩

theorem Bounded.enterAlternateScreen (hok : t.Ok) (h : Bounded config t) :
    Bounded config t.enterAlternateScreen := by
  have hclear := hok.freezeWholePresentation.clearActive
  unfold Terminal.enterAlternateScreen
  dsimp only
  split
  · exact h.freezeWholePresentation
  · next hprimary =>
    exact h.freezeWholePresentation.entered hclear (Bool.eq_false_of_not_eq_true hprimary) true

theorem Bounded.leaveAlternateScreen (hok : t.Ok) (h : Bounded config t) :
    Bounded config t.leaveAlternateScreen := by
  have hclear := hok.freezeWholePresentation.clearActive
  unfold Terminal.leaveAlternateScreen
  dsimp only
  split
  · next halt => exact h.freezeWholePresentation.left hclear halt true
  · exact h.freezeWholePresentation

theorem Bounded.clearScrollback (hok : t.Ok) (h : Bounded config t) :
    Bounded config t.clearScrollback := h.setScreen hok.advances_clearScrollback

theorem Bounded.takeDirtyRegions (h : Bounded config t) : Bounded config t.takeDirtyRegions.1 := by
  unfold Terminal.takeDirtyRegions
  split <;> exact ⟨h.live, h.stash, h.liveConfig, h.stashConfig⟩

theorem Bounded.recordBatch (h : Bounded config t) (before : Terminal) :
    Bounded config (recordBatch before t) := by
  rw [recordBatch_eq]
  exact h.of_same rfl rfl

theorem Bounded.stampSync (h : Bounded config t) (len now : Nat) :
    Bounded config (t.stampSync len now) := by
  unfold Terminal.stampSync
  split <;> exact h.of_same rfl rfl

variable [Crates]

theorem Bounded.processWithResponses (hok : t.Ok) (h : Bounded config t) (len now : Nat)
    (calls : List Call) :
    Runs (t.processWithResponses len now calls) fun out => Bounded config out.1 := by
  have hstart : Bounded config t.releaseOverfull := by
    unfold releaseOverfull
    split
    · exact h.forceReleaseSync hok
    · exact h
  have hcleared : Bounded config { t.releaseOverfull with responses := [] } :=
    ⟨hstart.live, hstart.stash, hstart.liveConfig, hstart.stashConfig⟩
  apply Runs.bind ((preserves_bounded config).calls ⟨hok.releaseOverfull.clearResponses, hcleared⟩
    calls fun _ _ _ _ => trivial)
  rintro after ⟨-, hafter⟩
  exact .pure ((hafter.recordBatch _).stampSync len now)

/-- Whether an event leaves room; only a resize might not. -/
def fits (t : Terminal) : Event → Bool
  | .step (.resize rows cols) => t.resizeFits (max rows 1) (max cols 1)
  | _ => true

/-- Whether every event of a run leaves room in the state it meets. -/
def runFits (t : Terminal) : List Event → Bool
  | [] => true
  | event :: events => t.fits event && (t.event event).all fun t' => t'.runFits events

theorem Bounded.event (hok : t.Ok) (h : Bounded config t) (event : Event)
    (hfits : t.fits event = true) : Runs (t.event event) (Bounded config) := by
  cases event with
  | step step =>
    cases step with
    | process len now calls =>
      apply Runs.bind (h.processWithResponses hok len now calls)
      exact fun out hout => .pure hout
    | resize rows cols =>
      obtain ⟨t', ht', hbounded⟩ := h.resize hok hfits
      refine ⟨t', ?_, hbounded⟩
      simp only [Terminal.event, Terminal.step, ht']
      rfl
    | enterAlternateScreen => exact .pure (h.enterAlternateScreen hok)
    | leaveAlternateScreen => exact .pure (h.leaveAlternateScreen hok)
    | releaseExpiredSync now => exact .pure (h.releaseExpiredSync hok now)
  | takeDirtyRegions => exact .pure h.takeDirtyRegions
  | clearScrollback => exact .pure (h.clearScrollback hok)

theorem Bounded.run (hok : t.Ok) (h : Bounded config t) (events : List Event)
    (hfits : t.runFits events = true) :
    Runs (t.run events) fun t' => t'.Ok ∧ Bounded config t' := by
  induction events generalizing t with
  | nil => exact .pure ⟨hok, h⟩
  | cons event events ih =>
    rw [runFits, Bool.and_eq_true] at hfits
    obtain ⟨t', ht', hok'⟩ := hok.event event
    obtain ⟨t'', ht'', h'⟩ := h.event hok event hfits.1
    obtain rfl : t' = t'' := Option.some.inj (ht'.symm.trans ht'')
    rw [ht'] at hfits
    obtain ⟨t₁, ht₁, hend⟩ := ih hok' h' hfits.2
    refine ⟨t₁, ?_, hend⟩
    rw [Terminal.run, each, List.foldlM_cons, ht']
    exact ht₁

/-- In a run whose resizes leave room, the primary screen keeps to its history and the
alternate screen has none. -/
theorem run_scrollback (rows cols : Nat) (config : GridConfig) (events : List Event)
    (hfits : (withConfig rows cols config).runFits events = true) :
    ∃ t, (withConfig rows cols config).run events = some t ∧
      (t.modes.alternateScreen = false → t.grid.raw.length ≤ t.rows + config.maxScrollback) ∧
      (t.modes.alternateScreen = true → t.grid.raw.length = t.rows) := by
  obtain ⟨t, hrun, hok, h⟩ := (bounded_withConfig rows cols config).run
    (ok_withConfig rows cols config) events hfits
  have hlive := h.live
  unfold Grid.Within at hlive
  rw [hok.rows] at hlive
  refine ⟨t, hrun, fun hprimary => ?_, fun halt => ?_⟩
  · rw [h.liveConfig hprimary] at hlive
    exact hlive
  · rw [(hok.canvas halt).config] at hlive
    have hge := hok.screen.grid.rows_le
    rw [hok.rows] at hge
    exact le_antisymm hlive hge

omit [Crates]

/-- Two lines of text. -/
def twoLines : Event := .step (.process 4 1 [.print 'a', .execute 13, .execute 10, .print 'b'])

theorem run_scrollback_grown :
    (@runFits plainCrates (withConfig 2 2 .default) [twoLines, .step (.resize 3 2)] = true) ∧
      ∃ t, @run plainCrates (withConfig 2 2 .default) [twoLines, .step (.resize 3 2)] = some t ∧
        (t.modes.alternateScreen = false →
          t.grid.raw.length ≤ t.rows + GridConfig.default.maxScrollback) ∧
        (t.modes.alternateScreen = true → t.grid.raw.length = t.rows) := by
  have hfits : @runFits plainCrates (withConfig 2 2 .default)
      [twoLines, .step (.resize 3 2)] = true := by
    decide
  exact ⟨hfits, @run_scrollback plainCrates 2 2 .default _ hfits⟩

/-- Shrinking the alternate screen by a line leaves a line of history on it. -/
theorem run_scrollback_shrunk : ∃ t, @run plainCrates (withConfig 2 2 .default)
        [.step .enterAlternateScreen, twoLines, .step (.resize 1 2)] = some t ∧
      t.modes.alternateScreen = true ∧ t.rows = 1 ∧ t.grid.raw.length = 2 := by
  decide

end Terminal

end Shux.Vt
