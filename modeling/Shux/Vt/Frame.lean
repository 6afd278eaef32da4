/-
# The presented frame

What a viewer sees of a terminal: the visible rows, the cursor, the title, the default
colours and whether the alternate screen is showing. Freezing a component changes none of
it. While a window is open, everything an operation overwrites is frozen first, and so the
frame stays what it was.
-/

import Shux.Vt.Geometry

namespace Shux.Vt

open Checked Handler

namespace Grid

variable {g g' : Grid}

/-- The visible rows. -/
def viewport (g : Grid) : List Row := g.raw.drop g.scrollbackLen

theorem Ok.length_viewport (h : g.Ok) : g.viewport.length = g.rows := by
  have hsb := h.scrollbackLen_add
  rw [viewport, List.length_drop]
  omega

theorem Ok.viewport_clonePresentedViewport (h : g.Ok) :
    g.clonePresentedViewport.viewport = g.viewport := by
  have hlen := h.length_viewport
  have hzero : g.clonePresentedViewport.scrollbackLen = 0 := by
    show g.viewport.length - g.rows = 0
    omega
  rw [viewport, hzero]
  rfl

theorem cellAt_eq_viewport (g : Grid) (r c : Nat) :
    g.cellAt r c = (g.viewport[r]?).bind fun row => row.cells[c]? := by
  rw [viewport, List.getElem?_drop]
  rfl

end Grid

/-- What a viewer sees. -/
structure Frame where
  rows : List Row
  cursor : Nat × Nat × Bool
  title : Option String
  colors : TerminalDefaultColors
  alternate : Bool
deriving DecidableEq, Repr

namespace Terminal

variable {t : Terminal}
variable {h' : Handler}

/-- The presented frame. -/
def frame (t : Terminal) : Frame where
  rows := t.presentedGrid.viewport
  cursor := cursorKey t.presentedCursor
  title := t.presentedTitle
  colors := t.presentedColors
  alternate := t.isAlternateScreen

/-- A slot stands for what was live before a write that froze it, or left it alone. -/
theorem getD_freezeSlot {α : Type} {touched : Bool} {x y : α} (hkept : Kept false touched x y)
    (slot : Option α) : (freezeSlot touched slot x).getD y = slot.getD x := by
  rcases hkept with ⟨rfl, rfl⟩ | rfl
  · rfl
  · cases slot <;> rfl

/-- The rows a slot of the grid stands for, and the marks on them. -/
def slotShown (slot : Option FrozenScreen) (live : Grid) : List Row × DirtyState :=
  let g := (slot.map fun frozen => frozen.grid).getD live
  (g.viewport, g.dirty)

theorem slotShown_freezeSlot {live live' : Grid} (h : live.Ok) {touched : Bool}
    (hkept : Kept false touched live live') (slot : Option FrozenScreen) :
    slotShown (freezeSlot touched slot (.snapshot live)) live' = slotShown slot live := by
  rcases hkept with ⟨rfl, rfl⟩ | rfl
  · rfl
  · cases slot with
    | none => exact congrArg (·, live.dirty) h.viewport_clonePresentedViewport
    | some frozen => rfl

/-- The rows presented, and the marks on them. -/
def shown (t : Terminal) : List Row × DirtyState := slotShown t.frozenGrid t.grid

theorem Ok.shown_commit (h : t.Ok) (harmed : t.syncArmed = true)
    (hadv : Advances ⟨t.toScreen, .nothing⟩ h') : (t.commit h').shown = t.shown := by
  unfold Terminal.commit
  rw [freeze_eq, harmed]
  exact slotShown_freezeSlot h.screen.grid hadv.grid t.frozenGrid

/-- An operation of the handler behind an open window. -/
theorem Ok.frame_commit (h : t.Ok) (harmed : t.syncArmed = true)
    (hadv : Advances ⟨t.toScreen, .nothing⟩ h') : (t.commit h').frame = t.frame := by
  unfold Terminal.commit
  rw [freeze_eq, harmed]
  unfold frame presentedGrid presentedCursor presentedTitle presentedColors isAlternateScreen
  simp only [if_true, getD_freezeSlot hadv.cursor, getD_freezeSlot hadv.title,
    getD_freezeSlot hadv.colors, hadv.alternate]
  congr 1
  exact congrArg Prod.fst (slotShown_freezeSlot h.screen.grid hadv.grid t.frozenGrid)

/-- Freezing is committing to the screen as it is. -/
theorem Ok.freeze_eq_commit (h : t.Ok) (touched : Touched) :
    t.freeze touched = t.commit ⟨t.toScreen, touched⟩ ∧
      Advances ⟨t.toScreen, .nothing⟩ ⟨t.toScreen, touched⟩ := by
  refine ⟨?_, h.screen, h.screen.grid.evolves_refl, rfl, .of_eq _ _, .of_eq _ _, .of_eq _ _,
    .of_eq _ _⟩
  unfold Terminal.commit
  rw [freeze_eq]

theorem Ok.frame_freeze (h : t.Ok) (touched : Touched) : (t.freeze touched).frame = t.frame := by
  cases harmed : t.syncArmed with
  | false => rw [freeze_unarmed harmed]
  | true =>
    obtain ⟨heq, hadv⟩ := h.freeze_eq_commit touched
    rw [heq]
    exact h.frame_commit harmed hadv

theorem Ok.shown_freeze (h : t.Ok) (touched : Touched) : (t.freeze touched).shown = t.shown := by
  cases harmed : t.syncArmed with
  | false => rw [freeze_unarmed harmed]
  | true =>
    obtain ⟨heq, hadv⟩ := h.freeze_eq_commit touched
    rw [heq]
    exact h.shown_commit harmed hadv

theorem frame_freezeAltFlag (t : Terminal) : t.freezeAltFlag.frame = t.frame := by
  cases harmed : t.syncArmed with
  | false => rw [freezeAltFlag_unarmed harmed]
  | true =>
    rw [freezeAltFlag_eq, harmed]
    unfold frame isAlternateScreen
    simp only [if_true, getD_freezeSlot (Kept.of_eq true _)]
    rfl

theorem Ok.frame_freezeWholePresentation (h : t.Ok) :
    t.freezeWholePresentation.frame = t.frame := by
  unfold Terminal.freezeWholePresentation
  rw [frame_freezeAltFlag, h.frame_freeze]

theorem isSome_freezeSlot {α : Type} (slot : Option α) (live : α) :
    (freezeSlot true slot live).isSome = true := by
  cases slot <;> rfl

/-- What a screen switch overwrites is frozen. -/
structure Sealed (t : Terminal) : Prop where
  grid : t.frozenGrid.isSome = true
  cursor : t.frozenCursor.isSome = true
  alternate : t.frozenAlt.isSome = true

theorem sealed_freezeForSwitch (harmed : t.syncArmed = true) : t.freezeForSwitch.Sealed := by
  unfold freezeForSwitch freezeForSwap
  rw [freezeAltFlag_eq, freeze_eq, harmed]
  exact ⟨isSome_freezeSlot _ _, isSome_freezeSlot _ _, isSome_freezeSlot _ _⟩

theorem sealed_freezeWholePresentation (harmed : t.syncArmed = true) :
    t.freezeWholePresentation.Sealed := by
  unfold freezeWholePresentation
  rw [freezeAltFlag_eq, freeze_eq, harmed]
  exact ⟨isSome_freezeSlot _ _, isSome_freezeSlot _ _, isSome_freezeSlot _ _⟩

/-- Grid, cursor and flag may change behind a sealed frame. -/
theorem Sealed.frame_eq {t' : Terminal} (h : t.Sealed) (hgrid : t'.frozenGrid = t.frozenGrid)
    (hcursor : t'.frozenCursor = t.frozenCursor) (halt : t'.frozenAlt = t.frozenAlt)
    (htitle : t'.presentedTitle = t.presentedTitle)
    (hcolors : t'.presentedColors = t.presentedColors) : t'.frame = t.frame := by
  obtain ⟨frozen, hfrozen⟩ := Option.isSome_iff_exists.mp h.grid
  obtain ⟨cursor, hsome⟩ := Option.isSome_iff_exists.mp h.cursor
  obtain ⟨alt, hflag⟩ := Option.isSome_iff_exists.mp h.alternate
  unfold frame presentedGrid presentedCursor isAlternateScreen
  rw [htitle, hcolors, hgrid, hcursor, halt, hfrozen, hsome, hflag]
  rfl

theorem Sealed.frame_entered (h : t.Sealed) (parks : Bool) : (t.entered parks).frame = t.frame := by
  rw [entered_eq]
  exact h.frame_eq rfl rfl rfl rfl rfl

theorem Ok.frame_left (hok : t.Ok) (h : t.Sealed) (halt : t.modes.alternateScreen = true)
    (parks : Bool) : (t.left parks).frame = t.frame := by
  obtain ⟨primary, hprimary⟩ := hok.exists_parked halt
  rw [left_eq hprimary]
  exact h.frame_eq rfl rfl rfl rfl rfl

theorem frame_markAllDirty (t : Terminal) (h : t.frozenGrid = none) :
    t.markAllDirty.frame = t.frame := by
  unfold frame presentedGrid
  rw [show t.markAllDirty.frozenGrid = none from h, h]
  rfl

theorem Ok.frame_hold (h : t.Ok) : (t.setSynchronizedOutput true).frame = t.frame := by
  have hmarked : t.syncArmed = false → frame { t.markAllDirty with syncArmed := true } = t.frame :=
    fun harmed => frame_markAllDirty t (h.unarmed harmed).1
  exact hold_cases (fun _ => rfl)
    (fun harmed => h.markAllDirty.arm.frame_freezeWholePresentation.trans (hmarked harmed)) hmarked

/-- If a window is open at the end, it was open before, and the frame is what it was. -/
structure Steady (t t' : Terminal) : Prop where
  ok : t'.Ok
  frame : t'.syncArmed = true → t.syncArmed = true ∧ t'.frame = t.frame

theorem Ok.steady_refl (h : t.Ok) : Steady t t := ⟨h, fun harmed => ⟨harmed, rfl⟩⟩

theorem Steady.trans {t' t'' : Terminal} (h : Steady t t') (h' : Steady t' t'') : Steady t t'' := by
  refine ⟨h'.ok, fun harmed => ?_⟩
  obtain ⟨harmed', hframe'⟩ := h'.frame harmed
  obtain ⟨harmed'', hframe⟩ := h.frame harmed'
  exact ⟨harmed'', hframe'.trans hframe⟩

theorem syncArmed_freezeForSwitch (t : Terminal) : t.freezeForSwitch.syncArmed = t.syncArmed := by
  unfold freezeForSwitch freezeForSwap
  rw [freezeAltFlag_eq, freeze_eq]

theorem Ok.frame_freezeForSwitch (h : t.Ok) : t.freezeForSwitch.frame = t.frame := by
  unfold freezeForSwitch freezeForSwap
  rw [frame_freezeAltFlag, h.frame_freeze]

theorem Ok.steady_commit (h : t.Ok) (hadv : Advances ⟨t.toScreen, .nothing⟩ h') :
    Steady t (t.commit h') := by
  refine ⟨h.commit hadv, fun harmed => ?_⟩
  have hbefore : t.syncArmed = true := by
    unfold Terminal.commit at harmed
    rw [freeze_eq] at harmed
    exact harmed
  exact ⟨hbefore, h.frame_commit hbefore hadv⟩

theorem Ok.steady_entered (h : t.Ok) (parks : Bool) :
    Steady t (t.freezeForSwitch.entered parks) := by
  have hfrozen : t.freezeForSwitch.Ok := (h.freeze _).freezeAltFlag
  refine ⟨hfrozen.entered parks, fun harmed => ?_⟩
  have hbefore : t.syncArmed = true := by
    rw [entered_eq] at harmed
    exact t.syncArmed_freezeForSwitch.symm.trans harmed
  exact ⟨hbefore, ((sealed_freezeForSwitch hbefore).frame_entered parks).trans
    h.frame_freezeForSwitch⟩

theorem Ok.steady_left (h : t.Ok) (halt : t.modes.alternateScreen = true) (parks : Bool) :
    Steady t (t.freezeForSwitch.left parks) := by
  have hfrozen : t.freezeForSwitch.Ok := (h.freeze _).freezeAltFlag
  have halt' := t.alternate_freezeForSwitch.trans halt
  refine ⟨hfrozen.left halt' parks, fun harmed => ?_⟩
  have hbefore : t.syncArmed = true := by
    obtain ⟨primary, hprimary⟩ := hfrozen.exists_parked halt'
    rw [left_eq hprimary] at harmed
    exact t.syncArmed_freezeForSwitch.symm.trans harmed
  exact ⟨hbefore, (hfrozen.frame_left (sealed_freezeForSwitch hbefore) halt' parks).trans
    h.frame_freezeForSwitch⟩

/-- Everything but opening a window is steady. -/
theorem preserves_steady (t₀ : Terminal) : Preserves (· ≠ .hold) (Steady t₀) where
  ok h := h.ok.screen
  balanced h := h.ok.balanced
  parked h := h.ok.parked
  commit h hadv := h.trans (h.ok.steady_commit hadv)
  sink h hsink := ⟨h.ok.sink hsink, h.frame⟩
  enter parks _ _ h := h.trans (h.ok.steady_entered parks)
  leave parks _ halt h := h.trans (h.ok.steady_left halt parks)
  hold hfalse _ := absurd rfl hfalse
  release _ h := ⟨h.ok.release, fun hfalse => Bool.noConfusion hfalse⟩
  rewind _ h := by
    refine ⟨h.ok.rewind, fun harmed => ?_⟩
    rw [(fullReset_eq h.ok.parked).1.1] at harmed
    cases harmed

theorem syncArmed_freezeWholePresentation (t : Terminal) :
    t.freezeWholePresentation.syncArmed = t.syncArmed := by
  unfold freezeWholePresentation
  rw [freezeAltFlag_eq, freeze_eq]

/-- The whole frame is frozen, and its cell under construction forgotten. -/
theorem sealed_clearActive (harmed : t.freezeWholePresentation.syncArmed = true) :
    Sealed { t.freezeWholePresentation with activeGraphemeCell := none } := by
  have hsealed := sealed_freezeWholePresentation
    (t.syncArmed_freezeWholePresentation.symm.trans harmed)
  exact ⟨hsealed.grid, hsealed.cursor, hsealed.alternate⟩

theorem syncArmed_enterAlternateScreen (t : Terminal) :
    t.enterAlternateScreen.syncArmed = t.syncArmed := by
  rw [← t.syncArmed_freezeWholePresentation]
  unfold enterAlternateScreen
  dsimp only
  split
  · rfl
  · rw [swapEnter_eq]

theorem Ok.syncArmed_leaveAlternateScreen (h : t.Ok) :
    t.leaveAlternateScreen.syncArmed = t.syncArmed := by
  have hcleared := h.freezeWholePresentation.clearActive
  rw [← t.syncArmed_freezeWholePresentation]
  unfold Terminal.leaveAlternateScreen
  dsimp only
  split
  · next halt =>
    obtain ⟨primary, hprimary⟩ := hcleared.exists_parked halt
    rw [swapLeave_eq hprimary]
  · rfl

theorem Ok.frame_enterAlternateScreen (h : t.Ok) (harmed : t.syncArmed = true) :
    t.enterAlternateScreen.frame = t.frame := by
  have hsealed := sealed_clearActive (t.syncArmed_freezeWholePresentation.trans harmed)
  rw [← h.frame_freezeWholePresentation]
  unfold Terminal.enterAlternateScreen
  dsimp only
  split
  · rfl
  · exact hsealed.frame_entered true

theorem Ok.frame_leaveAlternateScreen (h : t.Ok) (harmed : t.syncArmed = true) :
    t.leaveAlternateScreen.frame = t.frame := by
  have hsealed := sealed_clearActive (t.syncArmed_freezeWholePresentation.trans harmed)
  rw [← h.frame_freezeWholePresentation]
  unfold Terminal.leaveAlternateScreen
  dsimp only
  split
  · next halt => exact h.freezeWholePresentation.clearActive.frame_left hsealed halt true
  · rfl

theorem cursorKey_clamp {cursor : Cursor} {rows cols : Nat} (h : cursor.Inside rows cols) :
    cursorKey (cursor.clamp rows cols) = cursorKey cursor := by
  have hrow := h.row
  have hcol := h.col
  show (min cursor.row (rows - 1), min cursor.col (cols - 1), cursor.visible) = _
  rw [min_eq_left (by omega), min_eq_left (by omega)]
  rfl

/-- A resize to the same size shows the same frame. -/
theorem Ok.frame_resize_same (h : t.Ok) {rows cols : Nat}
    (hsame : t.resizes (max rows 1) (max cols 1) = false) :
    Runs (t.resize rows cols) fun t' => t'.frame = t.frame ∧ t'.syncArmed = t.syncArmed ∧
      t'.contentRevision = t.contentRevision := by
  obtain ⟨hrows, hcols⟩ := resizes_eq_false.mp hsame
  obtain ⟨grid, cursor, altGrid, altCursor, heq, -⟩ :=
    (h.resizeStart false).resizeScreens (le_max_right rows 1) (le_max_right cols 1)
  obtain ⟨rfl, rfl⟩ :=
    (h.resizeStart false).same_of_resizeScreens (heq _ rfl rfl rfl) hrows hcols
  rw [resize_eq, hsame, heq _ rfl rfl rfl]
  refine .some ⟨?_, rfl, rfl⟩
  rw [hrows, hcols]
  show Frame.mk _ (cursorKey ((t.frozenCursor.map fun c => c.clamp t.rows t.cols).getD
    (t.cursor.clamp t.rows t.cols))) _ _ _ = _
  have hkey : cursorKey ((t.frozenCursor.map fun c => c.clamp t.rows t.cols).getD
      (t.cursor.clamp t.rows t.cols)) = cursorKey t.presentedCursor := by
    unfold presentedCursor
    cases hcursor : t.frozenCursor with
    | none => exact cursorKey_clamp h.cursor
    | some c => exact cursorKey_clamp (h.frozenCursor c hcursor)
  rw [hkey]
  rfl

theorem Ok.resize_changed (h : t.Ok) {rows cols : Nat}
    (hchanged : t.resizes (max rows 1) (max cols 1) = true) :
    Runs (t.resize rows cols) fun t' => t'.syncArmed = false ∧
      t'.contentRevision = t.contentRevision + 1 := by
  obtain ⟨grid, cursor, altGrid, altCursor, heq, -⟩ :=
    (h.resizeStart true).resizeScreens (le_max_right rows 1) (le_max_right cols 1)
  rw [resize_eq, hchanged, heq _ rfl rfl rfl]
  refine .some ⟨t.resizeStart_unarmed, ?_⟩
  show (t.resizeStart true).contentRevision + 1 = _
  unfold Terminal.resizeStart
  dsimp only
  split <;> rfl

theorem Ok.frame_resize (h : t.Ok) (rows cols : Nat) :
    Runs (t.resize rows cols) fun t' => t'.Ok ∧ (t'.syncArmed = true → t'.frame = t.frame) := by
  obtain ⟨t', ht', hok⟩ := h.resize rows cols
  refine ⟨t', ht', hok, fun harmed => ?_⟩
  cases hchanged : t.resizes (max rows 1) (max cols 1) with
  | true =>
    obtain ⟨t'', ht'', hoff, -⟩ := h.resize_changed hchanged
    rw [ht'] at ht''
    cases ht''
    cases harmed.symm.trans hoff
  | false =>
    obtain ⟨t'', ht'', hframe, -⟩ := h.frame_resize_same hchanged
    rw [ht'] at ht''
    cases ht''
    exact hframe

theorem frame_releaseExpiredSync {now : Nat}
    (harmed : (t.releaseExpiredSync now).1.syncArmed = true) :
    (t.releaseExpiredSync now).1.frame = t.frame := by
  unfold releaseExpiredSync at harmed ⊢
  split at harmed
  · dsimp only at harmed
    split at harmed <;> cases harmed
  · next hopen => rw [if_neg hopen]

end Terminal

end Shux.Vt
