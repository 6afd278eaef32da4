/-
# Recycling the retired grid shows nowhere

Two terminals are driven by the same events. One takes its retired alternate-screen grid
back, the other builds a new one each time. They differ in the retired grid itself and in
nothing else: what they write into the alternate screen starts, in both, from the same
canvas.
-/

import Shux.Vt.Geometry

namespace Shux.Vt

open Checked Handler

namespace Terminal

variable {t u : Terminal} {spare : Option Grid} {reuse : Bool}

/-- The same terminal with another retired grid. -/
def shelve (t : Terminal) (spare : Option Grid) (reuse : Bool) : Terminal :=
  { t with altSpare := spare, reuseRetiredGrids := reuse }

/-- Two terminals in order that differ at most in the retired grid. -/
structure Alike (t u : Terminal) : Prop where
  left : t.Ok
  right : u.Ok
  same : ∃ spare reuse, u = t.shelve spare reuse

theorem commit_shelve (t : Terminal) (h : Handler) :
    (t.shelve spare reuse).commit h = (t.commit h).shelve spare reuse := by
  unfold commit
  rw [freeze_eq, freeze_eq]
  rfl

theorem freezeForSwitch_shelve (t : Terminal) :
    (t.shelve spare reuse).freezeForSwitch = t.freezeForSwitch.shelve spare reuse := by
  unfold freezeForSwitch freezeForSwap
  rw [freeze_eq, freeze_eq, freezeAltFlag_eq, freezeAltFlag_eq]
  rfl

theorem freezeWholePresentation_shelve (t : Terminal) :
    (t.shelve spare reuse).freezeWholePresentation =
      t.freezeWholePresentation.shelve spare reuse := by
  unfold freezeWholePresentation
  rw [freeze_eq, freeze_eq, freezeAltFlag_eq, freezeAltFlag_eq]
  rfl

/-- Either way the alternate screen starts from a new canvas. -/
theorem entered_shelve (h : t.Ok) (h' : (t.shelve spare reuse).Ok) (parks : Bool) :
    (t.shelve spare reuse).entered parks = (t.entered parks).shelve none reuse := by
  have hcanvas : (t.shelve spare reuse).altCanvas.markAllDirty = t.altCanvas.markAllDirty := by
    rw [altCanvas_markAllDirty h.spare, altCanvas_markAllDirty h'.spare]
    rfl
  rw [entered_eq, entered_eq, hcanvas]
  rfl

theorem left_shelve (h : t.Ok) (halt : t.modes.alternateScreen = true) (parks : Bool) :
    (t.shelve spare reuse).left parks =
      (t.left parks).shelve (if reuse then some t.grid else spare) reuse := by
  obtain ⟨primary, hprimary⟩ := h.exists_parked halt
  have hprimary' : (t.shelve spare reuse).altGrid = some primary := hprimary
  rw [left_eq hprimary, left_eq hprimary']
  rfl

theorem hold_shelve (t : Terminal) : (t.shelve spare reuse).setSynchronizedOutput true =
      (t.setSynchronizedOutput true).shelve spare reuse := by
  cases harmed : t.syncArmed with
  | true =>
    rw [hold_armed harmed, hold_armed (t := t.shelve spare reuse) harmed]
    rfl
  | false =>
    rw [hold_unarmed harmed, hold_unarmed (t := t.shelve spare reuse) harmed]
    cases heager : t.eagerSyncFreeze with
    | true =>
      rw [show (t.shelve spare reuse).eagerSyncFreeze = true from heager]
      exact congrArg (fun t => setSyncMode t true)
        (freezeWholePresentation_shelve { t.markAllDirty with syncArmed := true })
    | false =>
      rw [show (t.shelve spare reuse).eagerSyncFreeze = false from heager]
      rfl

theorem Alike.mk_shelve (h : t.Ok) (h' : u.Ok) (heq : u = t.shelve spare reuse) : Alike t u :=
  ⟨h, h', spare, reuse, heq⟩

section

variable (h : Alike t u)
include h

theorem Alike.freezeForSwitch : Alike t.freezeForSwitch u.freezeForSwitch := by
  obtain ⟨hok, hok', spare, reuse, rfl⟩ := h
  exact .mk_shelve (hok.freeze _).freezeAltFlag (hok'.freeze _).freezeAltFlag
    (freezeForSwitch_shelve t)

theorem Alike.freezeWholePresentation :
    Alike t.freezeWholePresentation u.freezeWholePresentation := by
  obtain ⟨hok, hok', spare, reuse, rfl⟩ := h
  exact .mk_shelve hok.freezeWholePresentation hok'.freezeWholePresentation
    (freezeWholePresentation_shelve t)

theorem Alike.entered (parks : Bool) : Alike (t.entered parks) (u.entered parks) := by
  obtain ⟨hok, hok', spare, reuse, rfl⟩ := h
  exact .mk_shelve (hok.entered parks) (hok'.entered parks) (entered_shelve hok hok' parks)

theorem Alike.leave (halt : t.modes.alternateScreen = true) (parks : Bool) :
    Alike (t.left parks) (u.left parks) := by
  obtain ⟨hok, hok', spare, reuse, rfl⟩ := h
  exact .mk_shelve (hok.left halt parks) (hok'.left halt parks) (left_shelve hok halt parks)

theorem Alike.alternate : u.modes.alternateScreen = t.modes.alternateScreen := by
  obtain ⟨-, -, spare, reuse, rfl⟩ := h
  rfl

theorem Alike.releaseSyncPresentation :
    Alike t.releaseSyncPresentation u.releaseSyncPresentation := by
  obtain ⟨hok, hok', spare, reuse, rfl⟩ := h
  exact .mk_shelve hok.releaseSyncPresentation hok'.releaseSyncPresentation rfl

theorem Alike.rewind : Alike t.rewind u.rewind := by
  have hreleased := h.releaseSyncPresentation
  have halternate : u.releaseSyncPresentation.modes.alternateScreen =
      t.releaseSyncPresentation.modes.alternateScreen := hreleased.alternate
  unfold Terminal.rewind
  dsimp only
  rw [halternate]
  split
  · next halt => exact hreleased.leave halt false
  · exact hreleased

end

theorem mirrors_alike : Mirrors (fun _ => True) Alike where
  same h := by
    obtain ⟨-, -, spare, reuse, rfl⟩ := h
    exact ⟨rfl, rfl⟩
  ok h := h.left.screen
  balanced h := h.left.balanced
  parked h := ⟨h.left.parked, h.right.parked⟩
  commit h hadv := by
    obtain ⟨hok, hok', spare, reuse, rfl⟩ := h
    exact .mk_shelve (hok.commit hadv) (hok'.commit hadv) (commit_shelve _ _)
  sink h hsink := by
    obtain ⟨hok, hok', spare, reuse, rfl⟩ := h
    exact .mk_shelve (hok.sink hsink) (hok'.sink hsink) rfl
  enter parks _ _ h := h.freezeForSwitch.entered parks
  leave {t _} parks _ halt h :=
    h.freezeForSwitch.leave (t.alternate_freezeForSwitch.trans halt) parks
  hold _ h := by
    obtain ⟨hok, hok', spare, reuse, rfl⟩ := h
    exact .mk_shelve hok.hold hok'.hold (hold_shelve _)
  release _ h := by
    obtain ⟨hok, hok', spare, reuse, rfl⟩ := h
    exact .mk_shelve hok.release hok'.release rfl
  rewind _ h := h.rewind

theorem Ok.setRetiredGridReuse (h : t.Ok) : (t.setRetiredGridReuse false).Ok where
  screen := h.screen
  rows := h.rows
  cols := h.cols
  parked := h.parked
  stash := h.stash
  altCursor := h.altCursor
  canvas := h.canvas
  spare _ hspare := by cases hspare
  balanced := h.balanced
  frozenGrid := h.frozenGrid
  frozenCursor := h.frozenCursor
  unarmed := h.unarmed

section

variable (h : Alike t u)
include h

theorem Alike.clearActive :
    Alike { t with activeGraphemeCell := none } { u with activeGraphemeCell := none } := by
  obtain ⟨hok, hok', spare, reuse, rfl⟩ := h
  exact .mk_shelve hok.clearActive hok'.clearActive rfl

theorem Alike.enterAlternateScreen : Alike t.enterAlternateScreen u.enterAlternateScreen := by
  have hcleared := h.freezeWholePresentation.clearActive
  have halternate := h.freezeWholePresentation.alternate
  unfold Terminal.enterAlternateScreen
  dsimp only
  rw [halternate]
  split
  · exact hcleared
  · exact hcleared.entered true

theorem Alike.leaveAlternateScreen : Alike t.leaveAlternateScreen u.leaveAlternateScreen := by
  have hcleared := h.freezeWholePresentation.clearActive
  have halternate := h.freezeWholePresentation.alternate
  unfold Terminal.leaveAlternateScreen
  dsimp only
  rw [halternate]
  split
  · next halt => exact hcleared.leave halt true
  · exact hcleared

theorem Alike.releaseExpiredSync (now : Nat) :
    Alike (t.releaseExpiredSync now).1 (u.releaseExpiredSync now).1 := by
  refine ⟨h.left.releaseExpiredSync now, h.right.releaseExpiredSync now, ?_⟩
  obtain ⟨-, -, spare, reuse, rfl⟩ := h
  refine ⟨spare, reuse, ?_⟩
  have hexpired : (t.shelve spare reuse).syncWindowExpired now = t.syncWindowExpired now := rfl
  have hreveals :
      (t.shelve spare reuse).syncReleaseRevealsClassA = t.syncReleaseRevealsClassA := rfl
  unfold Terminal.releaseExpiredSync
  rw [hexpired, hreveals]
  split
  · dsimp only
    split <;> rfl
  · rfl

theorem Alike.resizeStart (changed : Bool) :
    Alike (t.resizeStart changed) (u.resizeStart changed) := by
  refine ⟨h.left.resizeStart changed, h.right.resizeStart changed, ?_⟩
  obtain ⟨-, -, spare, reuse, rfl⟩ := h
  refine ⟨if changed then none else spare, reuse, ?_⟩
  have harmed : (t.shelve spare reuse).syncArmed = t.syncArmed := rfl
  unfold Terminal.resizeStart
  dsimp only
  rw [harmed]
  split <;> rfl

theorem Alike.resize (rows cols : Nat) : Both (t.resize rows cols) (u.resize rows cols) Alike := by
  have hsize : u.resizes (max rows 1) (max cols 1) = t.resizes (max rows 1) (max cols 1) := by
    obtain ⟨-, -, spare, reuse, rfl⟩ := h
    rfl
  have hstart := h.resizeStart (t.resizes (max rows 1) (max cols 1))
  obtain ⟨t₁, ht₁, hok₁⟩ := h.left.resize rows cols
  obtain ⟨u₁, hu₁, hok₁'⟩ := h.right.resize rows cols
  refine ⟨t₁, u₁, ht₁, hu₁, hok₁, hok₁', ?_⟩
  obtain ⟨grid, cursor, altGrid, altCursor, heq, -⟩ :=
    hstart.left.resizeScreens (le_max_right rows 1) (le_max_right cols 1)
  obtain ⟨spare, reuse, hsame⟩ := hstart.same
  have hscreens := heq ((t.resizeStart (t.resizes (max rows 1) (max cols 1))).shelve spare reuse)
    rfl rfl rfl
  rw [resize_eq, heq _ rfl rfl rfl] at ht₁
  rw [resize_eq, hsize, hsame, hscreens] at hu₁
  cases ht₁
  cases hu₁
  refine ⟨spare, reuse, ?_⟩
  unfold Terminal.resizeEnd
  dsimp only
  split <;> rfl

theorem Alike.takeDirtyRegions :
    Alike t.takeDirtyRegions.1 u.takeDirtyRegions.1 ∧
      u.takeDirtyRegions.2 = t.takeDirtyRegions.2 := by
  have hright := h.right.takeDirtyRegions
  obtain ⟨hok, -, spare, reuse, rfl⟩ := h
  have heq : (t.shelve spare reuse).takeDirtyRegions =
      (t.takeDirtyRegions.1.shelve spare reuse, t.takeDirtyRegions.2) := by
    unfold Terminal.takeDirtyRegions
    rw [show (t.shelve spare reuse).frozenGrid = t.frozenGrid from rfl]
    split <;> rfl
  rw [heq] at hright ⊢
  exact ⟨.mk_shelve hok.takeDirtyRegions hright rfl, rfl⟩

theorem Alike.clearScrollback : Alike t.clearScrollback u.clearScrollback := by
  obtain ⟨hok, hok', spare, reuse, rfl⟩ := h
  exact .mk_shelve hok.clearScrollback hok'.clearScrollback rfl

theorem Alike.releaseOverfull : Alike t.releaseOverfull u.releaseOverfull := by
  refine ⟨h.left.releaseOverfull, h.right.releaseOverfull, ?_⟩
  obtain ⟨-, -, spare, reuse, rfl⟩ := h
  refine ⟨spare, reuse, ?_⟩
  unfold Terminal.releaseOverfull
  rw [show (t.shelve spare reuse).syncArmed = t.syncArmed from rfl,
    show (t.shelve spare reuse).syncBytes = t.syncBytes from rfl]
  split <;> rfl

end

theorem Alike.recordBatch {t₀ u₀ : Terminal} (h₀ : Alike t₀ u₀) (h : Alike t u) :
    Alike (recordBatch t₀ t) (recordBatch u₀ u) := by
  refine ⟨h.left.recordBatch t₀, h.right.recordBatch u₀, ?_⟩
  obtain ⟨-, -, spare₀, reuse₀, rfl⟩ := h₀
  obtain ⟨-, -, spare, reuse, rfl⟩ := h
  refine ⟨spare, reuse, ?_⟩
  rw [recordBatch_eq, recordBatch_eq]
  rfl

theorem Alike.stampSync (h : Alike t u) (len now : Nat) :
    Alike (t.stampSync len now) (u.stampSync len now) := by
  refine ⟨h.left.stampSync len now, h.right.stampSync len now, ?_⟩
  obtain ⟨-, -, spare, reuse, rfl⟩ := h
  refine ⟨spare, reuse, ?_⟩
  unfold Terminal.stampSync
  rw [show (t.shelve spare reuse).syncArmed = t.syncArmed from rfl]
  split <;> rfl

theorem Alike.clearResponses (h : Alike t u) :
    Alike { t with responses := [] } { u with responses := [] } := by
  obtain ⟨hok, hok', spare, reuse, rfl⟩ := h
  exact .mk_shelve hok.clearResponses hok'.clearResponses rfl

variable [Crates]

theorem Alike.processWithResponses (h : Alike t u) (len now : Nat) (calls : List Call) :
    Both (t.processWithResponses len now calls) (u.processWithResponses len now calls)
      fun out out' => Alike out.1 out'.1 := by
  have hbefore := h.releaseOverfull
  apply Both.bind (mirrors_alike.bisim.calls hbefore.clearResponses calls fun _ _ _ _ => trivial)
  intro t₁ u₁ hafter
  exact Both.pure ((hbefore.recordBatch hafter).stampSync len now)

theorem Alike.event (h : Alike t u) (event : Event) :
    Both (t.event event) (u.event event) Alike := by
  cases event with
  | step step =>
    cases step with
    | process len now calls =>
      apply Both.bind (h.processWithResponses len now calls)
      exact fun _ _ hout => Both.pure hout
    | resize rows cols =>
      obtain ⟨t₁, u₁, ht₁, hu₁, h₁⟩ := h.resize rows cols
      refine ⟨t₁, u₁, ?_, ?_, h₁⟩
      · simp only [Terminal.event, Terminal.step, ht₁]
        rfl
      · simp only [Terminal.event, Terminal.step, hu₁]
        rfl
    | enterAlternateScreen => exact Both.pure h.enterAlternateScreen
    | leaveAlternateScreen => exact Both.pure h.leaveAlternateScreen
    | releaseExpiredSync now => exact Both.pure (h.releaseExpiredSync now)
  | takeDirtyRegions => exact Both.pure h.takeDirtyRegions.1
  | clearScrollback => exact Both.pure h.clearScrollback

theorem Alike.run (h : Alike t u) (events : List Event) :
    Both (t.run events) (u.run events) Alike :=
  Both.each h fun event _ _ _ h' => h'.event event

/-- A terminal that recycles its retired grid and one that does not agree on everything but
that grid: on both screens with their rows, history, placements, marks and tallies, on
cursor, modes and replies, on the presented frame and the revision, and on the regions
they would report. -/
theorem run_recycled (rows cols : Nat) (config : GridConfig) (events : List Event) :
    ∃ t u, (withConfig rows cols config).run events = some t ∧
      ((withConfig rows cols config).setRetiredGridReuse false).run events = some u ∧
      u = { t with altSpare := u.altSpare, reuseRetiredGrids := u.reuseRetiredGrids } ∧
      u.takeDirtyRegions.2 = t.takeDirtyRegions.2 := by
  have hstart : Alike (withConfig rows cols config)
      ((withConfig rows cols config).setRetiredGridReuse false) :=
    .mk_shelve (ok_withConfig rows cols config) (ok_withConfig rows cols config).setRetiredGridReuse
      rfl
  obtain ⟨t, u, ht, hu, halike⟩ := hstart.run events
  refine ⟨t, u, ht, hu, ?_, halike.takeDirtyRegions.2⟩
  obtain ⟨spare, reuse, rfl⟩ := halike.same
  rfl

end Terminal

end Shux.Vt
