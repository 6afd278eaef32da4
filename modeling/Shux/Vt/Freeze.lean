/-
# Freezing late shows nowhere

One terminal freezes the whole presented frame when a window opens. The other, as in
production, freezes each component at its first write. The first is a function of the
second: where nothing is frozen yet, the component is still what it was when the window
opened. Every step keeps this, and what the two present is the same.
-/

import Shux.Vt.Frame

namespace Shux.Vt

open Checked Handler

theorem Kept.map {α β : Type} {was now : Bool} {x y : α} (h : Kept was now x y) (f : α → β) :
    Kept was now (f x) (f y) := by
  rcases h with ⟨hnow, rfl⟩ | hnow
  · exact .inl ⟨hnow, rfl⟩
  · exact .inr hnow

namespace Terminal

variable {t u : Terminal} {rev : Nat}

/-- A slot that is filled whenever a window is open. -/
def fillSlot {α : Type} (armed : Bool) (slot : Option α) (live : α) : Option α :=
  if armed then some (slot.getD live) else slot

/-- The terminal that froze everything when the window opened. -/
def eagerOf (t : Terminal) (rev : Nat) : Terminal :=
  { t with
    frozenGrid := fillSlot t.syncArmed t.frozenGrid (.snapshot t.grid)
    frozenCursor := fillSlot t.syncArmed t.frozenCursor t.cursor
    frozenTitle := fillSlot t.syncArmed t.frozenTitle t.title
    frozenColors := fillSlot t.syncArmed t.frozenColors t.defaultColors
    frozenAlt := fillSlot t.syncArmed t.frozenAlt t.modes.alternateScreen
    eagerSyncFreeze := true
    contentRevision := rev }

/-- A terminal that freezes late and one that freezes early, after the same steps. -/
structure Twin (t u : Terminal) : Prop where
  ok : t.Ok
  late : t.eagerSyncFreeze = false
  flag : t.frozenGrid = none → t.frozenAlt = none
  early : ∃ rev, u = t.eagerOf rev

theorem fillSlot_freezeSlot {α : Type} {touched : Bool} {x y : α} (hkept : Kept false touched x y)
    (armed : Bool) (slot : Option α) :
    fillSlot armed (if armed then freezeSlot touched slot x else slot) y =
      if armed then freezeSlot touched (fillSlot armed slot x) x else fillSlot armed slot x := by
  cases armed with
  | false => rfl
  | true =>
    show some ((freezeSlot touched slot x).getD y) = freezeSlot touched (some (slot.getD x)) x
    rw [getD_freezeSlot hkept]
    unfold freezeSlot
    rw [show (some (slot.getD x)).isNone = false from rfl, Bool.and_false]
    rfl

theorem eagerOf_commit {h : Handler} (hadv : Advances ⟨t.toScreen, .nothing⟩ h) (rev : Nat) :
    (t.eagerOf rev).commit h = (t.commit h).eagerOf rev := by
  unfold commit
  rw [freeze_eq, freeze_eq]
  unfold eagerOf
  simp only
  rw [fillSlot_freezeSlot (hadv.grid.map FrozenScreen.snapshot), fillSlot_freezeSlot hadv.cursor,
    fillSlot_freezeSlot hadv.title, fillSlot_freezeSlot hadv.colors, hadv.alternate]

theorem eagerOf_freezeForSwitch (t : Terminal) (rev : Nat) :
    (t.eagerOf rev).freezeForSwitch = t.freezeForSwitch.eagerOf rev := by
  unfold freezeForSwitch freezeForSwap
  rw [freezeAltFlag_eq, freezeAltFlag_eq, freeze_eq, freeze_eq]
  unfold eagerOf
  simp only [fillSlot_freezeSlot (Kept.of_eq _ _)]

theorem eagerOf_freezeWholePresentation (t : Terminal) (rev : Nat) :
    (t.eagerOf rev).freezeWholePresentation = t.freezeWholePresentation.eagerOf rev := by
  unfold freezeWholePresentation
  rw [freezeAltFlag_eq, freezeAltFlag_eq, freeze_eq, freeze_eq]
  unfold eagerOf
  simp only [fillSlot_freezeSlot (Kept.of_eq _ _)]

/-- A filled slot does not look at what is live. -/
theorem fillSlot_congr {α : Type} {armed : Bool} {slot : Option α}
    (h : armed = true → slot.isSome = true) (x y : α) :
    fillSlot armed slot x = fillSlot armed slot y := by
  cases armed with
  | false => rfl
  | true =>
    obtain ⟨a, rfl⟩ := Option.isSome_iff_exists.mp (h rfl)
    rfl

/-- Behind a sealed frame grid, cursor and flag may change. -/
theorem eagerOf_sealed (hsealed : t.syncArmed = true → t.Sealed) (grid : Grid) (cursor : Cursor)
    (modes : TerminalModes) (altGrid altSpare : Option Grid) (altCursor : Option Cursor)
    (graphics : GraphicsSink) (rev : Nat) :
    { t.eagerOf rev with grid, cursor, modes, altGrid, altSpare, altCursor, graphics } =
      eagerOf { t with grid, cursor, modes, altGrid, altSpare, altCursor, graphics } rev := by
  unfold eagerOf
  dsimp only
  rw [fillSlot_congr (fun harmed => (hsealed harmed).grid) (.snapshot t.grid) (.snapshot grid),
    fillSlot_congr (fun harmed => (hsealed harmed).cursor) t.cursor cursor,
    fillSlot_congr (fun harmed => (hsealed harmed).alternate) t.modes.alternateScreen
      modes.alternateScreen]

theorem eagerOf_entered (hsealed : t.syncArmed = true → t.Sealed) (parks : Bool) (rev : Nat) :
    (t.eagerOf rev).entered parks = (t.entered parks).eagerOf rev := by
  rw [entered_eq, entered_eq]
  exact eagerOf_sealed hsealed _ _ _ _ _ _ _ rev

theorem eagerOf_left (hok : t.Ok) (halt : t.modes.alternateScreen = true)
    (hsealed : t.syncArmed = true → t.Sealed) (parks : Bool) (rev : Nat) :
    (t.eagerOf rev).left parks = (t.left parks).eagerOf rev := by
  obtain ⟨primary, hprimary⟩ := hok.exists_parked halt
  rw [left_eq hprimary, left_eq (t := t.eagerOf rev) hprimary]
  exact eagerOf_sealed hsealed _ _ _ _ _ _ _ rev

theorem eagerOf_unarmed (hoff : t.syncArmed = false) (rev : Nat) :
    t.eagerOf rev = { t with eagerSyncFreeze := true, contentRevision := rev } := by
  unfold eagerOf
  rw [hoff]
  rfl

theorem eagerOf_hold (hok : t.Ok) (hlate : t.eagerSyncFreeze = false) (rev : Nat) :
    (t.eagerOf rev).setSynchronizedOutput true = (t.setSynchronizedOutput true).eagerOf rev := by
  cases harmed : t.syncArmed with
  | true =>
    rw [hold_armed harmed, hold_armed (t := t.eagerOf rev) harmed]
    rfl
  | false =>
    obtain ⟨hgrid, hcursor, htitle, hcolors, halt⟩ := hok.unarmed harmed
    rw [hold_unarmed harmed, hold_unarmed (t := t.eagerOf rev) harmed, hlate,
      eagerOf_unarmed harmed]
    unfold freezeWholePresentation
    rw [freezeAltFlag_eq, freeze_eq]
    unfold markAllDirty setSyncMode eagerOf
    simp only [hgrid, hcursor, htitle, hcolors, halt]
    rfl

namespace Twin

theorem same (h : Twin t u) : u.toScreen = t.toScreen ∧ u.graphics = t.graphics := by
  obtain ⟨rev, rfl⟩ := h.early
  exact ⟨rfl, rfl⟩

theorem flag_of_sealed (hok : t.Ok) (hsealed : t.syncArmed = true → t.Sealed) :
    t.frozenGrid = none → t.frozenAlt = none := by
  intro hnone
  cases harmed : t.syncArmed with
  | true =>
    have hsome := (hsealed harmed).grid
    rw [hnone] at hsome
    cases hsome
  | false => exact (hok.unarmed harmed).2.2.2.2

section

variable (h : Twin t u)
include h

theorem commit {h' : Handler} (hadv : Advances ⟨t.toScreen, .nothing⟩ h') :
    Twin (t.commit h') (u.commit h') := by
  refine ⟨h.ok.commit hadv, ?_, ?_, ?_⟩
  · unfold Terminal.commit
    rw [freeze_eq]
    exact h.late
  · unfold Terminal.commit
    rw [freeze_eq]
    intro hnone
    apply h.flag
    dsimp only at hnone
    split at hnone
    · unfold freezeSlot at hnone
      split at hnone
      · cases hnone
      · exact hnone
    · exact hnone
  · obtain ⟨rev, rfl⟩ := h.early
    exact ⟨rev, eagerOf_commit hadv rev⟩

theorem sink {sink : GraphicsSink} (hsink : sink.Balanced) :
    Twin { t with graphics := sink } { u with graphics := sink } := by
  refine ⟨h.ok.sink hsink, h.late, h.flag, ?_⟩
  obtain ⟨rev, rfl⟩ := h.early
  exact ⟨rev, rfl⟩

theorem freezeForSwitch : Twin t.freezeForSwitch u.freezeForSwitch := by
  have hok : t.freezeForSwitch.Ok := (h.ok.freeze _).freezeAltFlag
  refine ⟨hok, ?_, ?_, ?_⟩
  · unfold Terminal.freezeForSwitch freezeForSwap
    rw [freezeAltFlag_eq, freeze_eq]
    exact h.late
  · apply flag_of_sealed hok
    intro harmed
    exact sealed_freezeForSwitch (t.syncArmed_freezeForSwitch.symm.trans harmed)
  · obtain ⟨rev, rfl⟩ := h.early
    exact ⟨rev, eagerOf_freezeForSwitch t rev⟩

theorem freezeWholePresentation : Twin t.freezeWholePresentation u.freezeWholePresentation := by
  have hok := h.ok.freezeWholePresentation
  refine ⟨hok, ?_, ?_, ?_⟩
  · unfold Terminal.freezeWholePresentation
    rw [freezeAltFlag_eq, freeze_eq]
    exact h.late
  · apply flag_of_sealed hok
    intro harmed
    apply sealed_freezeWholePresentation
    unfold Terminal.freezeWholePresentation at harmed
    rw [freezeAltFlag_eq, freeze_eq] at harmed
    exact harmed
  · obtain ⟨rev, rfl⟩ := h.early
    exact ⟨rev, eagerOf_freezeWholePresentation t rev⟩

theorem entered (hsealed : t.syncArmed = true → t.Sealed) (parks : Bool) :
    Twin (t.entered parks) (u.entered parks) := by
  have hok := h.ok.entered parks
  refine ⟨hok, ?_, ?_, ?_⟩
  · rw [entered_eq]
    exact h.late
  · rw [entered_eq]
    exact h.flag
  · obtain ⟨rev, rfl⟩ := h.early
    exact ⟨rev, eagerOf_entered hsealed parks rev⟩

theorem leave (halt : t.modes.alternateScreen = true)
    (hsealed : t.syncArmed = true → t.Sealed) (parks : Bool) :
    Twin (t.left parks) (u.left parks) := by
  obtain ⟨primary, hprimary⟩ := h.ok.exists_parked halt
  refine ⟨h.ok.left halt parks, ?_, ?_, ?_⟩
  · rw [left_eq hprimary]
    exact h.late
  · rw [left_eq hprimary]
    exact h.flag
  · obtain ⟨rev, rfl⟩ := h.early
    exact ⟨rev, eagerOf_left h.ok halt hsealed parks rev⟩

theorem hold : Twin (t.setSynchronizedOutput true) (u.setSynchronizedOutput true) := by
  have heq : t.setSynchronizedOutput true = t.setSyncMode true ∨
      t.syncArmed = false ∧ t.setSynchronizedOutput true =
        setSyncMode { t.markAllDirty with syncArmed := true } true := by
    cases harmed : t.syncArmed with
    | true => exact .inl (hold_armed harmed)
    | false =>
      refine .inr ⟨rfl, ?_⟩
      rw [hold_unarmed harmed, h.late]
      rfl
  refine ⟨h.ok.hold, ?_, ?_, ?_⟩
  · rcases heq with heq | ⟨-, heq⟩
    · rw [heq]
      exact h.late
    · rw [heq]
      exact h.late
  · rcases heq with heq | ⟨-, heq⟩
    · rw [heq]
      exact h.flag
    · rw [heq]
      exact h.flag
  · obtain ⟨rev, rfl⟩ := h.early
    exact ⟨rev, eagerOf_hold h.ok h.late rev⟩

theorem releaseSyncPresentation : Twin t.releaseSyncPresentation u.releaseSyncPresentation := by
  refine ⟨h.ok.releaseSyncPresentation, h.late, fun _ => rfl, ?_⟩
  obtain ⟨rev, rfl⟩ := h.early
  exact ⟨rev, rfl⟩

theorem release : Twin (t.setSynchronizedOutput false) (u.setSynchronizedOutput false) := by
  refine ⟨h.ok.release, h.late, fun _ => rfl, ?_⟩
  obtain ⟨rev, rfl⟩ := h.early
  exact ⟨rev, rfl⟩

theorem alternate : u.modes.alternateScreen = t.modes.alternateScreen := by
  obtain ⟨rev, rfl⟩ := h.early
  rfl

theorem rewind : Twin t.rewind u.rewind := by
  have hreleased := h.releaseSyncPresentation
  have halternate : u.releaseSyncPresentation.modes.alternateScreen =
      t.releaseSyncPresentation.modes.alternateScreen := hreleased.alternate
  unfold Terminal.rewind
  dsimp only
  rw [halternate]
  split
  · next halt => exact hreleased.leave halt (fun harmed => by cases harmed) false
  · exact hreleased

end

end Twin

theorem mirrors_twin : Mirrors (fun _ => True) Twin where
  same h := h.same
  ok h := h.ok.screen
  balanced h := h.ok.balanced
  parked h := by
    obtain ⟨rev, rfl⟩ := h.early
    exact ⟨h.ok.parked, h.ok.parked⟩
  commit h hadv := h.commit hadv
  sink h hsink := h.sink hsink
  enter {t _} parks _ _ h :=
    h.freezeForSwitch.entered
      (fun harmed => sealed_freezeForSwitch (t.syncArmed_freezeForSwitch.symm.trans harmed)) parks
  leave {t _} parks _ halt h :=
    h.freezeForSwitch.leave (t.alternate_freezeForSwitch.trans halt)
      (fun harmed => sealed_freezeForSwitch (t.syncArmed_freezeForSwitch.symm.trans harmed)) parks
  hold _ h := h.hold
  release _ h := h.release
  rewind _ h := h.rewind

namespace Twin

section

variable (h : Twin t u)
include h

theorem clearActive :
    Twin { t with activeGraphemeCell := none } { u with activeGraphemeCell := none } := by
  refine ⟨h.ok.clearActive, h.late, h.flag, ?_⟩
  obtain ⟨rev, rfl⟩ := h.early
  exact ⟨rev, rfl⟩

theorem clearResponses : Twin { t with responses := [] } { u with responses := [] } := by
  refine ⟨h.ok.clearResponses, h.late, h.flag, ?_⟩
  obtain ⟨rev, rfl⟩ := h.early
  exact ⟨rev, rfl⟩

theorem forceReleaseSync : Twin t.forceReleaseSync u.forceReleaseSync := by
  refine ⟨h.ok.forceReleaseSync, h.late, fun _ => rfl, ?_⟩
  obtain ⟨rev, rfl⟩ := h.early
  exact ⟨rev, rfl⟩

/-- The revision may differ, and nothing reads it. -/
theorem stamped (syncOpenedNs syncBytes contentRevision contentRevision' : Nat)
    (syncHiddenClassA : Bool) :
    Twin { t with syncOpenedNs, syncBytes, contentRevision, syncHiddenClassA }
      { u with
        syncOpenedNs, syncBytes, contentRevision := contentRevision', syncHiddenClassA } := by
  refine ⟨h.ok.stamped _ _ _ _ _, h.late, h.flag, ?_⟩
  obtain ⟨rev, rfl⟩ := h.early
  exact ⟨contentRevision', rfl⟩

theorem enterAlternateScreen : Twin t.enterAlternateScreen u.enterAlternateScreen := by
  have hcleared := h.freezeWholePresentation.clearActive
  have halternate := h.freezeWholePresentation.alternate
  unfold Terminal.enterAlternateScreen
  dsimp only
  rw [halternate]
  split
  · exact hcleared
  · exact hcleared.entered sealed_clearActive true

theorem leaveAlternateScreen : Twin t.leaveAlternateScreen u.leaveAlternateScreen := by
  have hcleared := h.freezeWholePresentation.clearActive
  have halternate := h.freezeWholePresentation.alternate
  unfold Terminal.leaveAlternateScreen
  dsimp only
  rw [halternate]
  split
  · next halt => exact hcleared.leave halt sealed_clearActive true
  · exact hcleared

theorem releaseExpiredSync (now : Nat) :
    Twin (t.releaseExpiredSync now).1 (u.releaseExpiredSync now).1 := by
  have hreleased := h.forceReleaseSync
  have hexpired : u.syncWindowExpired now = t.syncWindowExpired now := by
    obtain ⟨rev, rfl⟩ := h.early
    rfl
  unfold Terminal.releaseExpiredSync
  rw [hexpired]
  split
  · dsimp only
    split <;> split <;> exact hreleased.stamped _ _ _ _ _
  · exact h

theorem releaseOverfull : Twin t.releaseOverfull u.releaseOverfull := by
  have hfull : (u.syncArmed && decide (syncUpdateMaxBytes ≤ u.syncBytes)) =
      (t.syncArmed && decide (syncUpdateMaxBytes ≤ t.syncBytes)) := by
    obtain ⟨rev, rfl⟩ := h.early
    rfl
  unfold Terminal.releaseOverfull
  rw [hfull]
  split
  · exact h.forceReleaseSync
  · exact h

end

theorem recordBatch {t₀ u₀ : Terminal} (h₀ : Twin t₀ u₀) (h : Twin t u) :
    Twin (recordBatch t₀ t) (recordBatch u₀ u) := by
  obtain ⟨rev₀, rfl⟩ := h₀.early
  have hstamped := h.stamped t.syncOpenedNs t.syncBytes
    (t.contentRevision + (batchCounts t₀ t).toNat)
    (u.contentRevision + (batchCounts (t₀.eagerOf rev₀) u).toNat)
    (t.syncArmed && (t.syncHiddenClassA || otherClassA t₀ t))
  rw [recordBatch_eq, recordBatch_eq]
  obtain ⟨rev, rfl⟩ := h.early
  exact hstamped

theorem stampSync (h : Twin t u) (len now : Nat) :
    Twin (t.stampSync len now) (u.stampSync len now) := by
  refine ⟨h.ok.stampSync len now, ?_, ?_, ?_⟩
  · unfold Terminal.stampSync
    split <;> exact h.late
  · unfold Terminal.stampSync
    split <;> exact h.flag
  · obtain ⟨rev, rfl⟩ := h.early
    refine ⟨rev, ?_⟩
    unfold Terminal.stampSync
    rw [show (t.eagerOf rev).syncArmed = t.syncArmed from rfl]
    split <;> rfl

theorem resizeStart (h : Twin t u) (changed : Bool) :
    Twin (t.resizeStart changed) (u.resizeStart changed) := by
  refine ⟨h.ok.resizeStart changed, ?_, ?_, ?_⟩
  · unfold Terminal.resizeStart
    dsimp only
    split <;> exact h.late
  · unfold Terminal.resizeStart
    dsimp only
    split
    · exact fun _ => rfl
    · exact h.flag
  · obtain ⟨rev, rfl⟩ := h.early
    refine ⟨rev, ?_⟩
    unfold Terminal.resizeStart
    rw [show (t.eagerOf rev).syncArmed = t.syncArmed from rfl]
    dsimp only
    split <;> rfl

theorem fillSlot_map {α : Type} (armed : Bool) (slot : Option α) (live : α) (f : α → α) :
    (fillSlot armed slot live).map f = fillSlot armed (slot.map f) (f live) := by
  cases armed <;> cases slot <;> rfl

/-- The end of a resize, when the frame is not frozen or neither size nor screens changed. -/
theorem resizeEnd (h : Twin t u) {rows cols : Nat} {grid : Grid} {cursor : Cursor}
    {altGrid : Option Grid} {altCursor : Option Cursor} {changed : Bool}
    (hok : (Terminal.resizeEnd { t with grid, cursor, altGrid, altCursor } rows cols changed).Ok)
    (hframe : t.syncArmed = false ∨ grid = t.grid ∧ cursor = t.cursor) :
    Twin (Terminal.resizeEnd { t with grid, cursor, altGrid, altCursor } rows cols changed)
      (Terminal.resizeEnd { u with grid, cursor, altGrid, altCursor } rows cols changed) := by
  refine ⟨hok, ?_, ?_, ?_⟩
  · unfold Terminal.resizeEnd
    dsimp only
    split <;> exact h.late
  · unfold Terminal.resizeEnd
    dsimp only
    split <;> exact h.flag
  · obtain ⟨rev, rfl⟩ := h.early
    refine ⟨(Terminal.resizeEnd { t.eagerOf rev with grid, cursor, altGrid, altCursor } rows cols
      changed).contentRevision, ?_⟩
    rcases hframe with hoff | ⟨rfl, rfl⟩
    · unfold Terminal.resizeEnd eagerOf
      dsimp only
      split <;> simp only [recordClassABatch, hoff, fillSlot, Bool.false_eq_true, if_false]
    · unfold Terminal.resizeEnd eagerOf
      dsimp only
      split <;> simp only [recordClassABatch, fillSlot_map]

theorem resize (h : Twin t u) (rows cols : Nat) :
    Both (t.resize rows cols) (u.resize rows cols) Twin := by
  have hsize : u.resizes (max rows 1) (max cols 1) = t.resizes (max rows 1) (max cols 1) := by
    obtain ⟨rev, rfl⟩ := h.early
    rfl
  obtain ⟨t₁, ht₁, hok₁⟩ := h.ok.resize rows cols
  have hstart := h.resizeStart (t.resizes (max rows 1) (max cols 1))
  have hscreen := hstart.same.1
  have hstash : (u.resizeStart (t.resizes (max rows 1) (max cols 1))).altGrid =
        (t.resizeStart (t.resizes (max rows 1) (max cols 1))).altGrid ∧
      (u.resizeStart (t.resizes (max rows 1) (max cols 1))).altCursor =
        (t.resizeStart (t.resizes (max rows 1) (max cols 1))).altCursor := by
    obtain ⟨rev, hearly⟩ := hstart.early
    rw [hearly]
    exact ⟨rfl, rfl⟩
  obtain ⟨grid, cursor, altGrid, altCursor, heq, -⟩ :=
    hstart.ok.resizeScreens (le_max_right rows 1) (le_max_right cols 1)
  have hsame := hstart.ok.same_of_resizeScreens (heq _ rfl rfl rfl)
  rw [ht₁, resize_eq, hsize, heq _ hscreen hstash.1 hstash.2]
  rw [resize_eq, heq _ rfl rfl rfl] at ht₁
  cases ht₁
  refine ⟨_, _, rfl, rfl, hstart.resizeEnd hok₁ ?_⟩
  cases hchanged : t.resizes (max rows 1) (max cols 1) with
  | true => exact .inl t.resizeStart_unarmed
  | false =>
    rw [hchanged] at hsame
    obtain ⟨hrows, hcols⟩ := resizes_eq_false.mp hchanged
    exact .inr (hsame hrows hcols)

end Twin

/-! ## What is presented -/

/-- Two terminals show the same, line by line through the history, and are the same behind
it. -/
structure Agree (t u : Terminal) : Prop where
  live : u.toScreen = t.toScreen
  stash : u.altGrid = t.altGrid ∧ u.altCursor = t.altCursor ∧ u.graphics = t.graphics
  size : u.rows = t.rows ∧ u.cols = t.cols
  rows : u.presentedGrid.viewport = t.presentedGrid.viewport
  totalLines : u.presentedTotalLines = t.presentedTotalLines
  row : ∀ abs, u.presentedRow abs = t.presentedRow abs
  cursor : u.presentedCursor = t.presentedCursor
  title : u.presentedTitle = t.presentedTitle
  colors : u.presentedColors = t.presentedColors
  alternate : u.isAlternateScreen = t.isAlternateScreen

theorem getD_fillSlot {α : Type} (armed : Bool) (slot : Option α) (live : α) :
    (fillSlot armed slot live).getD live = slot.getD live := by
  cases armed <;> rfl

/-- A frame that is not frozen yet has its history in the live grid. -/
theorem Ok.presented_snapshot (h : t.Ok) (hgrid : u.frozenGrid = some (.snapshot t.grid))
    (hhistory : u.presentedHistoryGrid = t.grid) :
    u.presentedGrid.viewport = t.grid.viewport ∧ u.presentedTotalLines = t.grid.totalLines ∧
      ∀ abs, u.presentedRow abs = t.grid.row abs := by
  have hlen : u.presentedHistoryLen = t.grid.scrollbackLen := by
    unfold presentedHistoryLen
    rw [hgrid, hhistory]
    show t.grid.scrollbackLen - (t.grid.evicted - t.grid.evicted) = _
    omega
  have hsb := h.screen.grid.scrollbackLen_add
  refine ⟨?_, ?_, fun abs => ?_⟩
  · unfold presentedGrid
    rw [hgrid]
    exact h.screen.grid.viewport_clonePresentedViewport
  · unfold presentedTotalLines
    rw [hgrid, hlen]
    show t.grid.scrollbackLen + (t.grid.raw.drop t.grid.scrollbackLen).length = t.grid.raw.length
    rw [List.length_drop]
    omega
  · unfold presentedRow
    rw [hgrid, hlen, hhistory]
    dsimp only
    split
    · rfl
    · next hge =>
      show (t.grid.raw.drop t.grid.scrollbackLen)[abs - t.grid.scrollbackLen]? = t.grid.raw[abs]?
      rw [List.getElem?_drop]
      congr 1
      omega

theorem Twin.agree (h : Twin t u) : Agree t u := by
  obtain ⟨hok, hlate, hflag, rev, rfl⟩ := h
  have hhistory : (t.eagerOf rev).presentedHistoryGrid = t.presentedHistoryGrid := by
    unfold presentedHistoryGrid eagerOf fillSlot
    dsimp only
    cases t.syncArmed with
    | false => rfl
    | true =>
      cases t.frozenAlt with
      | none => simp
      | some alt => rfl
  have hgrids : (t.eagerOf rev).presentedGrid.viewport = t.presentedGrid.viewport ∧
      (t.eagerOf rev).presentedTotalLines = t.presentedTotalLines ∧
      ∀ abs, (t.eagerOf rev).presentedRow abs = t.presentedRow abs := by
    cases harmed : t.syncArmed with
    | false =>
      rw [eagerOf_unarmed harmed]
      exact ⟨rfl, rfl, fun _ => rfl⟩
    | true =>
      cases hfrozen : t.frozenGrid with
      | none =>
        have hlive : t.presentedHistoryGrid = t.grid := by
          unfold presentedHistoryGrid
          rw [hflag hfrozen]
          rfl
        have hsnapshot : (t.eagerOf rev).frozenGrid = some (.snapshot t.grid) := by
          unfold eagerOf
          rw [harmed, hfrozen]
          rfl
        have hpresented := hok.presented_snapshot hsnapshot (hhistory.trans hlive)
        unfold presentedGrid presentedTotalLines presentedRow at hpresented ⊢
        rw [hfrozen]
        exact hpresented
      | some frozen =>
        have hsame : (t.eagerOf rev).frozenGrid = t.frozenGrid := by
          unfold eagerOf
          rw [harmed, hfrozen]
          rfl
        have hlen : (t.eagerOf rev).presentedHistoryLen = t.presentedHistoryLen := by
          unfold presentedHistoryLen
          rw [hsame, hhistory, hfrozen]
        unfold presentedGrid presentedTotalLines presentedRow
        rw [hsame, hlen, hhistory, hfrozen]
        exact ⟨rfl, rfl, fun _ => rfl⟩
  exact ⟨rfl, ⟨rfl, rfl, rfl⟩, ⟨rfl, rfl⟩, hgrids.1, hgrids.2.1, hgrids.2.2,
    getD_fillSlot _ _ _, getD_fillSlot _ _ _, getD_fillSlot _ _ _, getD_fillSlot _ _ _⟩

/-- The frame at the moment the window opened that is open after an operation. -/
def watch (before after : Terminal) (seen : Option Frame) : Option Frame :=
  if after.syncArmed then (if before.syncArmed then seen else some before.frame) else none

/-- An operation, with the frame watched. -/
def watching (f : Terminal → Checked Terminal) (w : Terminal × Option Frame) :
    Checked (Terminal × Option Frame) := do
  let t ← f w.1
  pure (t, watch w.1 t w.2)

variable [Crates]

/-- One call, with the frame watched. A sequence that sets several modes is watched from
mode to mode. -/
def watchCall (w : Terminal × Option Frame) (c : Call) : Checked (Terminal × Option Frame) :=
  match c with
  | .csi params intermediates false action =>
    match Csi.decode action intermediates with
    | some (.setPrivateMode enable) =>
      let t := if continuesTheCluster action intermediates then w.1
        else { w.1 with activeGraphemeCell := none }
      each params.flatten (t, w.2) fun w mode => watching (setPrivateMode enable · mode) w
    | _ => watching (call · c) w
  | _ => watching (call · c) w

/-- One step, with the frame watched. -/
def watchStep (w : Terminal × Option Frame) (s : Step) : Checked (Terminal × Option Frame) :=
  match s with
  | .process len now calls => do
    let before := w.1.releaseOverfull
    let (after, seen) ← each calls ({ before with responses := [] }, watch w.1 before w.2) watchCall
    pure ((recordBatch before after).stampSync len now, seen)
  | s => watching (fun t => do
    let (t, _) ← t.step s
    pure t) w

/-- The watched frame is the presented one while a window is open. -/
structure Seen (w : Terminal × Option Frame) : Prop where
  ok : w.1.Ok
  frame : w.1.syncArmed = true → w.2 = some w.1.frame

namespace Seen

variable {seen : Option Frame}

section

omit [Crates]

theorem watch {t' : Terminal} (h : Seen (t, seen)) (hok : t'.Ok)
    (hframe : t'.syncArmed = true → t'.frame = t.frame) :
    Seen (t', Terminal.watch t t' seen) := by
  refine ⟨hok, fun harmed => ?_⟩
  show Terminal.watch t t' seen = some t'.frame
  unfold Terminal.watch
  rw [if_pos harmed, hframe harmed]
  split
  · next hbefore => exact h.frame hbefore
  · rfl

theorem watching {f : Terminal → Checked Terminal} (h : Seen (t, seen))
    (hf : Runs (f t) fun t' => t'.Ok ∧ (t'.syncArmed = true → t'.frame = t.frame)) :
    Both (f t) (Terminal.watching f (t, seen)) fun t' w => w.1 = t' ∧ Seen w := by
  obtain ⟨t', ht', hok, hframe⟩ := hf
  refine ⟨t', (t', Terminal.watch t t' seen), ht', ?_, rfl, h.watch hok hframe⟩
  unfold Terminal.watching
  rw [show f (t, seen).1 = some t' from ht']
  rfl

end

theorem setPrivateMode (h : Seen (t, seen)) (enable : Bool) (mode : Nat) :
    Both (Terminal.setPrivateMode enable t mode)
      (Terminal.watching (Terminal.setPrivateMode enable · mode) (t, seen))
      fun t' w => w.1 = t' ∧ Seen w := by
  apply h.watching
  by_cases hhold : PrivateMode.decode mode = some .synchronizedOutput ∧ enable = true
  · obtain ⟨hmode, rfl⟩ := hhold
    unfold Terminal.setPrivateMode
    rw [hmode]
    exact .pure ⟨h.ok.hold, fun _ => h.ok.frame_hold⟩
  · have hkinds : ∀ m kind, PrivateMode.decode mode = some m → m.kind enable = some kind →
        kind ≠ .hold := by
      rintro m kind hmode hkind rfl
      cases m with
      | synchronizedOutput =>
        refine hhold ⟨hmode, ?_⟩
        cases enable with
        | true => rfl
        | false => cases hkind
      | alternateScreen parks => cases enable <;> cases hkind
      | _ => cases hkind
    have hboth := (preserves_steady t).mirrors.bisim.setPrivateMode ⟨rfl, h.ok.steady_refl⟩ enable
      mode hkinds
    apply hboth.left.mono
    rintro t' ⟨_, -, -, hsteady⟩
    exact ⟨hsteady.ok, fun harmed => (hsteady.frame harmed).2⟩

theorem plain (h : Seen (t, seen)) (c : Call) (hkinds : ∀ kind, c.uses kind → kind ≠ .hold) :
    Both (t.call c) (Terminal.watching (Terminal.call · c) (t, seen))
      fun t' w => w.1 = t' ∧ Seen w := by
  apply h.watching
  have hboth := (preserves_steady t).mirrors.bisim.call ⟨rfl, h.ok.steady_refl⟩ c hkinds
  apply hboth.left.mono
  rintro t' ⟨_, -, -, hsteady⟩
  exact ⟨hsteady.ok, fun harmed => (hsteady.frame harmed).2⟩

theorem call (h : Seen (t, seen)) (c : Call) :
    Both (t.call c) (watchCall (t, seen) c) fun t' w => w.1 = t' ∧ Seen w := by
  cases c with
  | csi params intermediates ignore action =>
    by_cases hmode : ignore = false ∧
        ∃ enable, Csi.decode action intermediates = some (.setPrivateMode enable)
    · obtain ⟨rfl, enable, hop⟩ := hmode
      have hstart : Seen (if continuesTheCluster action intermediates then t
          else { t with activeGraphemeCell := none }, seen) := by
        split
        · exact h
        · exact ⟨h.ok.clearActive, h.frame⟩
      simp only [Terminal.call, csiDispatch, watchCall, hop, Bool.false_eq_true, if_false]
      apply Both.each (R := fun t' w => w.1 = t' ∧ Seen w) ⟨rfl, hstart⟩
      rintro mode - t' ⟨_, seen'⟩ ⟨rfl, hseen⟩
      exact hseen.setPrivateMode enable mode
    · have hplain : watchCall (t, seen) (.csi params intermediates ignore action) =
          Terminal.watching (Terminal.call · (.csi params intermediates ignore action))
            (t, seen) := by
        unfold watchCall
        split
        · next params' intermediates' action' heq =>
          cases heq
          split
          · next enable hop => exact absurd ⟨rfl, enable, hop⟩ hmode
          · rfl
        · rfl
      rw [hplain]
      apply h.plain
      rintro kind ⟨rfl, enable, _, _, hop, -⟩
      exact absurd ⟨rfl, enable, hop⟩ hmode
  | esc intermediates ignore byte =>
    apply h.plain
    rintro kind ⟨-, -, rfl⟩ hhold
    cases hhold
  | print ch | execute byte | osc params bell | hook intermediates ignore action | put byte
  | unhook | graphics cmd payload | status reply => exact h.plain _ fun _ hfalse => hfalse.elim

omit [Crates] in
/-- Bookkeeping does not show. -/
theorem batched (h : Seen (t, seen)) (before : Terminal) (len now : Nat) :
    Seen ((recordBatch before t).stampSync len now, seen) := by
  refine ⟨(h.ok.recordBatch before).stampSync len now, ?_⟩
  show ((recordBatch before t).stampSync len now).syncArmed = true →
    seen = some ((recordBatch before t).stampSync len now).frame
  rw [recordBatch_eq]
  unfold Terminal.stampSync
  split
  · exact h.frame
  · exact h.frame

theorem process (h : Seen (t, seen)) (len now : Nat) (calls : List Call) :
    Both (t.processWithResponses len now calls) (watchStep (t, seen) (.process len now calls))
      fun out w => w.1 = out.1 ∧ Seen w := by
  have hbefore : Seen (t.releaseOverfull, Terminal.watch t t.releaseOverfull seen) := by
    apply h.watch h.ok.releaseOverfull
    intro harmed
    unfold Terminal.releaseOverfull at harmed ⊢
    split at harmed
    · cases harmed
    · next hroom => rw [if_neg hroom]
  have hstart : Seen ({ t.releaseOverfull with responses := [] },
      Terminal.watch t t.releaseOverfull seen) :=
    ⟨hbefore.ok.clearResponses, hbefore.frame⟩
  have hcalls : Both (each calls { t.releaseOverfull with responses := [] } Terminal.call)
      (each calls ({ t.releaseOverfull with responses := [] },
        Terminal.watch t t.releaseOverfull seen) watchCall)
      fun t' w => w.1 = t' ∧ Seen w := by
    apply Both.each (R := fun t' w => w.1 = t' ∧ Seen w) ⟨rfl, hstart⟩
    rintro c - t' ⟨_, seen'⟩ ⟨rfl, hseen⟩
    exact hseen.call c
  apply Both.bind hcalls
  rintro after ⟨_, seen'⟩ ⟨rfl, hafter⟩
  exact Both.pure ⟨rfl, hafter.batched _ len now⟩

/-- A step that is watched as a whole. -/
theorem whole (h : Seen (t, seen)) {s : Step}
    (hwhole : watchStep (t, seen) s = Terminal.watching (fun t => do
      let (t, _) ← t.step s
      pure t) (t, seen))
    (hs : Runs (t.step s) fun out => out.1.Ok ∧ (out.1.syncArmed = true → out.1.frame = t.frame)) :
    Both (t.step s) (watchStep (t, seen) s) fun out w => w.1 = out.1 ∧ Seen w := by
  obtain ⟨out, hout, hok, hframe⟩ := hs
  refine ⟨out, (out.1, Terminal.watch t out.1 seen), hout, ?_, rfl, h.watch hok hframe⟩
  rw [hwhole, Terminal.watching]
  dsimp only
  rw [hout]
  rfl

theorem step (h : Seen (t, seen)) (s : Step) :
    Both (t.step s) (watchStep (t, seen) s) fun out w => w.1 = out.1 ∧ Seen w := by
  cases s with
  | process len now calls => exact h.process len now calls
  | resize rows cols =>
    apply h.whole rfl
    apply Runs.bind (h.ok.frame_resize rows cols)
    exact fun t' ht' => .pure ht'
  | enterAlternateScreen =>
    apply h.whole rfl
    exact .pure ⟨h.ok.enterAlternateScreen, fun harmed =>
      h.ok.frame_enterAlternateScreen (t.syncArmed_enterAlternateScreen.symm.trans harmed)⟩
  | leaveAlternateScreen =>
    apply h.whole rfl
    exact .pure ⟨h.ok.leaveAlternateScreen, fun harmed =>
      h.ok.frame_leaveAlternateScreen (h.ok.syncArmed_leaveAlternateScreen.symm.trans harmed)⟩
  | releaseExpiredSync now =>
    apply h.whole rfl
    exact .pure ⟨h.ok.releaseExpiredSync now, frame_releaseExpiredSync⟩

end Seen

theorem Twin.processWithResponses (h : Twin t u) (len now : Nat) (calls : List Call) :
    Both (t.processWithResponses len now calls) (u.processWithResponses len now calls)
      fun out out' => Twin out.1 out'.1 ∧ out'.2 = out.2 := by
  have hbefore := h.releaseOverfull
  apply Both.bind (mirrors_twin.bisim.calls hbefore.clearResponses calls fun _ _ _ _ => trivial)
  intro t₁ u₁ hafter
  have hend := (hbefore.recordBatch hafter).stampSync len now
  exact Both.pure ⟨hend, congrArg Screen.responses hend.same.1⟩

theorem Twin.step (h : Twin t u) (s : Step) :
    Both (t.step s) (u.step s) fun out out' => Twin out.1 out'.1 ∧ out'.2 = out.2 := by
  cases s with
  | process len now calls => exact h.processWithResponses len now calls
  | resize rows cols =>
    apply Both.bind (h.resize rows cols)
    exact fun _ _ htwin => Both.pure ⟨htwin, rfl⟩
  | enterAlternateScreen => exact Both.pure ⟨h.enterAlternateScreen, rfl⟩
  | leaveAlternateScreen => exact Both.pure ⟨h.leaveAlternateScreen, rfl⟩
  | releaseExpiredSync now => exact Both.pure ⟨h.releaseExpiredSync now, rfl⟩

/-- A run of steps, with the replies to each. -/
def steps (t : Terminal) (ss : List Step) : Checked (Terminal × List (List String)) :=
  each ss (t, []) fun s step => do
    let (t, reply) ← s.1.step step
    pure (t, s.2 ++ [reply])

/-- A run of steps, with the frame watched. -/
def watched (t : Terminal) (ss : List Step) : Checked (Terminal × Option Frame) :=
  each ss (t, none) watchStep

theorem Twin.steps (h : Twin t u) (ss : List Step) :
    Both (t.steps ss) (u.steps ss) fun out out' => Twin out.1 out'.1 ∧ out'.2 = out.2 := by
  apply Both.each (R := fun (out out' : Terminal × List (List String)) =>
    Twin out.1 out'.1 ∧ out'.2 = out.2)
  · exact ⟨h, rfl⟩
  · rintro s - ⟨t', replies⟩ ⟨u', _⟩ ⟨htwin, rfl⟩
    apply Both.bind (htwin.step s)
    rintro ⟨t'', reply⟩ ⟨u'', _⟩ ⟨htwin', rfl⟩
    exact Both.pure ⟨htwin', rfl⟩

theorem Seen.steps (h : Seen (t, none)) (ss : List Step) :
    Both (t.steps ss) (t.watched ss) fun out w => w.1 = out.1 ∧ Seen w := by
  apply Both.each (R := fun (out : Terminal × List (List String)) w => w.1 = out.1 ∧ Seen w)
    ⟨rfl, h⟩
  rintro s - ⟨t', replies⟩ ⟨_, seen⟩ ⟨rfl, hseen⟩
  obtain ⟨out, w, hout, hw, heq, hend⟩ := hseen.step s
  refine ⟨(out.1, replies ++ [out.2]), w, ?_, hw, heq, hend⟩
  dsimp only
  rw [hout]
  rfl

/-- Freezing late and freezing early show the same after every run, give the same replies
and leave the same behind the frame; and while a window is open, the frame is the one of
the moment it opened. -/
theorem steps_freeze (rows cols : Nat) (config : GridConfig) (ss : List Step) :
    ∃ t u replies seen,
      (withConfig rows cols config).steps ss = some (t, replies) ∧
      ((withConfig rows cols config).setEagerSyncFreeze true).steps ss = some (u, replies) ∧
      Agree t u ∧ (withConfig rows cols config).watched ss = some (t, seen) ∧
      (t.syncArmed = true → seen = some t.frame) := by
  have hok := ok_withConfig rows cols config
  have htwin : Twin (withConfig rows cols config)
      ((withConfig rows cols config).setEagerSyncFreeze true) :=
    ⟨hok, rfl, fun _ => rfl, 1, rfl⟩
  have hseen : Seen (withConfig rows cols config, none) :=
    ⟨hok, fun hfalse => Bool.noConfusion hfalse⟩
  obtain ⟨⟨t, replies⟩, ⟨u, _⟩, ht, hu, hend, rfl⟩ := htwin.steps ss
  obtain ⟨out, ⟨t', seen⟩, hout, hw, heq, hframe⟩ := hseen.steps ss
  rw [ht] at hout
  cases hout
  obtain rfl : t' = t := heq
  exact ⟨t', u, _, seen, ht, hu, hend.agree, hw, hframe.frame⟩

end Terminal

end Shux.Vt
