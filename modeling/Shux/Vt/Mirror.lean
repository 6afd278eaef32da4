/-
# Terminals with the same live screen

Two terminals may differ in what they hold back or keep in store and still show the same
live screen and the same images. A relation of that kind needs less to be carried through
every call: it has to survive a committed operation, a new graphics sink, and the switches
of screen, window and state. An invariant is such a relation, of a terminal to itself.
-/

import Shux.Vt.Bisim

namespace Shux.Vt

open Checked Handler Both

namespace Terminal

variable {primary : Grid}

/-- The alternate screen in place of the primary one. -/
def entered (t : Terminal) (parks : Bool) : Terminal :=
  let t := t.swapEnter parks
  { t with modes := { t.modes with alternateScreen := true } }

/-- The primary screen in place of the alternate one. -/
def left (t : Terminal) (parks : Bool) : Terminal :=
  let t := t.swapLeave parks
  { t with modes := { t.modes with alternateScreen := false } }

/-- The switch to the alternate screen, written out. -/
theorem swapEnter_eq (t : Terminal) (parks : Bool) :
    t.swapEnter parks = { t with
      grid := t.altCanvas.markAllDirty
      altGrid := some t.grid
      altSpare := none
      cursor := if parks then { Cursor.new with saved := t.cursor.saved } else t.cursor
      altCursor := if parks then some t.cursor else none
      graphics := { t.graphics with altStore := t.graphics.altStore.clear } } := by
  cases parks <;> rfl

variable {t : Terminal}

/-- The switch back to the primary screen, written out. -/
theorem swapLeave_eq (h : t.altGrid = some primary) (restoreCursor : Bool) :
    t.swapLeave restoreCursor = { t with
      grid := primary.markAllDirty
      altGrid := none
      altSpare := if t.reuseRetiredGrids then some t.grid else t.altSpare
      cursor := if restoreCursor then t.altCursor.getD t.cursor else t.cursor
      altCursor := none
      graphics := { t.graphics with altStore := t.graphics.altStore.clear } } := by
  have hunpark : t.clearAltImages.unparkGrid = { t.clearAltImages with
      grid := primary.markAllDirty
      altGrid := none
      altSpare := if t.reuseRetiredGrids then some t.grid else t.altSpare } := by
    unfold unparkGrid
    rw [show t.clearAltImages.altGrid = some primary from h]
    rfl
  unfold swapLeave
  rw [hunpark]
  cases restoreCursor <;> rfl

theorem entered_eq (t : Terminal) (parks : Bool) :
    t.entered parks = { t with
      grid := t.altCanvas.markAllDirty
      altGrid := some t.grid
      altSpare := none
      cursor := if parks then { Cursor.new with saved := t.cursor.saved } else t.cursor
      altCursor := if parks then some t.cursor else none
      modes := { t.modes with alternateScreen := true }
      graphics := { t.graphics with altStore := t.graphics.altStore.clear } } := by
  unfold entered
  rw [swapEnter_eq]

theorem left_eq (h : t.altGrid = some primary) (parks : Bool) :
    t.left parks = { t with
      grid := primary.markAllDirty
      altGrid := none
      altSpare := if t.reuseRetiredGrids then some t.grid else t.altSpare
      cursor := if parks then t.altCursor.getD t.cursor else t.cursor
      altCursor := none
      modes := { t.modes with alternateScreen := false }
      graphics := { t.graphics with altStore := t.graphics.altStore.clear } } := by
  unfold left
  rw [swapLeave_eq h]

theorem freeze_eq (t : Terminal) (touched : Touched) :
    t.freeze touched = { t with
      frozenGrid := if t.syncArmed then freezeSlot touched.grid t.frozenGrid (.snapshot t.grid)
        else t.frozenGrid
      frozenCursor := if t.syncArmed then freezeSlot touched.cursor t.frozenCursor t.cursor
        else t.frozenCursor
      frozenTitle := if t.syncArmed then freezeSlot touched.title t.frozenTitle t.title
        else t.frozenTitle
      frozenColors := if t.syncArmed then freezeSlot touched.colors t.frozenColors t.defaultColors
        else t.frozenColors } := by
  unfold freeze
  split <;> rfl

theorem freezeAltFlag_eq (t : Terminal) :
    t.freezeAltFlag = { t with
      frozenAlt := if t.syncArmed then freezeSlot true t.frozenAlt t.modes.alternateScreen
        else t.frozenAlt } := by
  unfold freezeAltFlag
  split <;> rfl

/-- Opening a window that is open already. -/
theorem hold_armed (h : t.syncArmed = true) :
    t.setSynchronizedOutput true = t.setSyncMode true := by
  unfold setSynchronizedOutput
  simp only [h, if_true]

/-- Opening a window: the repaint mark, and in the eager mode a whole frozen frame. -/
theorem hold_unarmed (h : t.syncArmed = false) :
    t.setSynchronizedOutput true =
      (if t.eagerSyncFreeze then freezeWholePresentation { t.markAllDirty with syncArmed := true }
        else { t.markAllDirty with syncArmed := true }).setSyncMode true := by
  unfold setSynchronizedOutput
  simp only [h, Bool.false_eq_true, if_false, if_true]
  rfl

/-- What opening a window does, if it is open already, in the eager mode and in the other. -/
@[elab_as_elim]
theorem hold_cases {P : Terminal → Prop} (hopen : t.syncArmed = true → P (t.setSyncMode true))
    (heager : t.syncArmed = false →
      P ({ t.markAllDirty with syncArmed := true }.freezeWholePresentation.setSyncMode true))
    (hlazy : t.syncArmed = false → P ({ t.markAllDirty with syncArmed := true }.setSyncMode true)) :
    P (t.setSynchronizedOutput true) := by
  cases harmed : t.syncArmed with
  | true =>
    rw [hold_armed harmed]
    exact hopen harmed
  | false =>
    rw [hold_unarmed harmed]
    split
    · exact heager harmed
    · exact hlazy harmed

/-- What a screen switch freezes. -/
def freezeForSwitch (t : Terminal) : Terminal := t.freezeForSwap.freezeAltFlag

theorem altGrid_freezeForSwap (t : Terminal) : t.freezeForSwap.altGrid = t.altGrid := by
  unfold freezeForSwap freeze
  split <;> rfl

theorem setAlternateScreen_swapEnter (t : Terminal) (parks : Bool) :
    (t.swapEnter parks).setAlternateScreen true = t.freezeAltFlag.entered parks := by
  unfold setAlternateScreen entered
  rw [freezeAltFlag_eq, freezeAltFlag_eq, swapEnter_eq, swapEnter_eq]
  rfl

theorem setAlternateScreen_swapLeave (h : t.altGrid = some primary) (parks : Bool) :
    (t.swapLeave parks).setAlternateScreen false = t.freezeAltFlag.left parks := by
  have hfreeze : t.freezeAltFlag.altGrid = some primary := by
    rw [freezeAltFlag_eq]
    exact h
  unfold setAlternateScreen left
  rw [swapLeave_eq h, swapLeave_eq hfreeze, freezeAltFlag_eq, freezeAltFlag_eq]

end Terminal

/-- The terminal a full reset works on: no window is open, and the primary screen is live. -/
def Terminal.rewind (t : Terminal) : Terminal :=
  let t := t.releaseSyncPresentation
  if t.modes.alternateScreen then t.left false else t

/-- What a full reset does to the primary screen. -/
def Handler.resetAll (h : Handler) : Checked Handler := do
  let h ← h.onGrid fun g => g.clearVisible .default
  let h := h.setGrid h.grid.clearScrollback.markAllDirty.unplaceAll
  let h := { h with
    modes := {}
    lastGraphic := none
    charsets := .default
    tabStops := h.tabStops.reset h.grid.cols
    scrollRegion := ⟨0, h.grid.rows - 1⟩ }
  pure ((h.setCursor .new).setColors .default)

def GraphicsSink.clearStores (sink : GraphicsSink) : GraphicsSink :=
  { sink with primaryStore := sink.primaryStore.clear, altStore := sink.altStore.clear }

theorem GraphicsSink.balanced_clearStores (sink : GraphicsSink) : sink.clearStores.Balanced :=
  ⟨ImageStore.balanced_empty, ImageStore.balanced_empty⟩

variable {t : Terminal}

theorem Terminal.freeze_unarmed (h : t.syncArmed = false) (touched : Touched) :
    t.freeze touched = t := by
  rw [Terminal.freeze, h]
  rfl

theorem Terminal.commit_unarmed (h : t.syncArmed = false) (h' : Handler) :
    t.commit h' = { t with toScreen := h'.toScreen } := by
  rw [Terminal.commit, Terminal.freeze_unarmed h]

theorem Terminal.freezeAltFlag_unarmed (h : t.syncArmed = false) :
    t.freezeAltFlag = t := by
  rw [Terminal.freezeAltFlag, h]
  rfl

/-- A full reset of a terminal with no window open, on its primary screen. -/
theorem Terminal.onScreen_resetAll (h : t.syncArmed = false) : (do
      let t ← t.onScreen Handler.resetAll
      pure { t with graphics := t.graphics.clearStores }) = (do
      let grid ← t.grid.clearVisible .default
      let grid := grid.clearScrollback.markAllDirty.unplaceAll
      pure { t with
        grid
        cursor := .new
        modes := {}
        defaultColors := .default
        lastGraphic := none
        graphics := t.graphics.clearStores
        charsets := .default
        tabStops := t.tabStops.reset grid.cols
        scrollRegion := ⟨0, grid.rows - 1⟩ }) := by
  unfold Terminal.onScreen Handler.resetAll Handler.onGrid
  simp only [Terminal.commit_unarmed h]
  cases t.grid.clearVisible .default <;> rfl

theorem Terminal.fullReset_eq (hpark : t.altGrid.isSome = t.modes.alternateScreen) :
    (t.rewind.syncArmed = false ∧ t.rewind.modes.alternateScreen = false) ∧ t.fullReset = (do
      let t ← t.rewind.onScreen Handler.resetAll
      pure { t with graphics := t.graphics.clearStores }) := by
  have hrelease : t.releaseSyncPresentation.syncArmed = false := rfl
  have hopen : t.releaseSyncPresentation.modes.alternateScreen = t.modes.alternateScreen := rfl
  cases halt : t.modes.alternateScreen with
  | false =>
    have hrewind : t.rewind = t.releaseSyncPresentation := by
      unfold Terminal.rewind
      exact if_neg (ne_true_of_eq_false halt)
    rw [hrewind, Terminal.onScreen_resetAll hrelease]
    refine ⟨⟨hrelease, halt⟩, ?_⟩
    unfold Terminal.fullReset
    simp only [hopen, halt, Bool.false_eq_true, if_false]
    rfl
  | true =>
    rw [halt] at hpark
    obtain ⟨primary, hprimary⟩ := Option.isSome_iff_exists.mp hpark
    have hswap := Terminal.swapLeave_eq (t := t.releaseSyncPresentation) hprimary false
    have hrewind : t.rewind = t.releaseSyncPresentation.left false := by
      unfold Terminal.rewind
      exact if_pos halt
    have hunarmed : t.rewind.syncArmed = false := by
      rw [hrewind, Terminal.left, hswap]
      exact hrelease
    have hprimary : t.rewind.modes.alternateScreen = false := by
      rw [hrewind]
      rfl
    refine ⟨⟨hunarmed, hprimary⟩, ?_⟩
    rw [Terminal.onScreen_resetAll hunarmed, hrewind, Terminal.left, hswap]
    unfold Terminal.fullReset
    simp only [hopen, halt, if_true, hswap]
    rfl

theorem Screen.Ok.resetAll {h : Handler} (hs : h.toScreen.Ok)
    (hprimary : h.modes.alternateScreen = false) : Runs h.resetAll (Answers h) := by
  apply Runs.bind (hs.onGrid_advances (hs.grid.clearVisible _))
  intro h₁ hadv
  have hcleared := hadv.ok.grid.clearScrollback
  have hmarked := hcleared.trans hcleared.ok.markAllDirty
  have hgrid := hadv.ok.setGrid (hmarked.trans hmarked.ok.unplaceAll)
  have hrest : Answers (h₁.setGrid h₁.grid.clearScrollback.markAllDirty.unplaceAll)
      { h₁.setGrid h₁.grid.clearScrollback.markAllDirty.unplaceAll with
        modes := {}
        lastGraphic := none
        charsets := .default
        tabStops := (h₁.tabStops).reset h₁.grid.clearScrollback.markAllDirty.unplaceAll.cols
        scrollRegion := ⟨0, h₁.grid.clearScrollback.markAllDirty.unplaceAll.rows - 1⟩ } :=
    hgrid.ok.advances_view ⟨⟨rfl, rfl, rfl, rfl, rfl, (hadv.alternate.trans hprimary).symm⟩,
      .refl _⟩
      ⟨Nat.zero_le _, hgrid.ok.lastRow⟩ hgrid.ok.active (TabStops.length_new _)
  have hcursor : Answers _ (Handler.setCursor _ .new) :=
    hrest.ok.setCursor hrest.ok.rows hrest.ok.cols
  have hall := ((hadv.trans hgrid).trans hrest).trans hcursor
  exact .pure (hall.trans (hall.ok.setColors .default))

/-- A graphics query, which is answered without regard to the budget. -/
def Call.asks : Call → Bool
  | .graphics (some cmd) _ => cmd.action == .query && cmd.imageId != 0
  | _ => false

theorem Call.asks_iff {cmd : Option Command} {payload : List UInt8} :
    (Call.graphics cmd payload).asks = true ↔
      ∃ command, cmd = some command ∧ command.action = .query ∧ command.imageId ≠ 0 := by
  cases cmd with
  | none => simp [Call.asks]
  | some command => simp [Call.asks]

/-- A relation between terminals with the same live screen and the same images, which the same
operations keep. -/
structure Shares (allowed : Kind → Prop) (R : Terminal → Terminal → Prop) : Prop where
  same : ∀ {t u}, R t u → u.toScreen = t.toScreen ∧ u.graphics = t.graphics
  ok : ∀ {t u}, R t u → t.toScreen.Ok
  balanced : ∀ {t u}, R t u → t.graphics.Balanced
  parked : ∀ {t u}, R t u → t.altGrid.isSome = t.modes.alternateScreen ∧
    u.altGrid.isSome = u.modes.alternateScreen
  sink : ∀ {t u sink}, R t u → GraphicsSink.Balanced sink →
    R { t with graphics := sink } { u with graphics := sink }
  enter : ∀ {t u} parks, allowed .enter → t.modes.alternateScreen = false → R t u →
    R (t.freezeForSwitch.entered parks) (u.freezeForSwitch.entered parks)
  leave : ∀ {t u} parks, allowed .leave → t.modes.alternateScreen = true → R t u →
    R (t.freezeForSwitch.left parks) (u.freezeForSwitch.left parks)
  hold : ∀ {t u}, allowed .hold → R t u →
    R (t.setSynchronizedOutput true) (u.setSynchronizedOutput true)
  release : ∀ {t u}, allowed .release → R t u →
    R (t.setSynchronizedOutput false) (u.setSynchronizedOutput false)
  rewind : ∀ {t u}, allowed .reset → R t u → R t.rewind u.rewind

/-- One that the same commits keep as long as they answer within the budget. -/
structure Echoes (allowed : Kind → Prop) (R : Terminal → Terminal → Prop) : Prop
    extends Shares allowed R where
  commit : ∀ {t u h}, R t u → Answers ⟨t.toScreen, .nothing⟩ h → R (t.commit h) (u.commit h)

namespace Echoes

variable {allowed : Kind → Prop} {R : Terminal → Terminal → Prop} {t u : Terminal}

section

variable (hR : Echoes allowed R)
include hR

theorem grid (h : R t u) : u.grid = t.grid := congrArg Screen.grid (hR.same h).1

theorem alternate (h : R t u) : u.modes.alternateScreen = t.modes.alternateScreen :=
  congrArg (fun s => s.modes.alternateScreen) (hR.same h).1

theorem store (h : R t u) : u.store = t.store := by
  rw [Terminal.store, hR.alternate h, (hR.same h).2]
  rfl

/-- The same operation on both. -/
theorem onScreen {f : Handler → Checked Handler} (hf : Lawful f)
    (h : R t u) : Both (t.onScreen f) (u.onScreen f) R := by
  unfold Terminal.onScreen
  rw [(hR.same h).1]
  apply Both.bind (of_runs (hf _ (hR.ok h)))
  rintro h₁ _ ⟨rfl, hadv⟩
  exact Both.pure (hR.commit h hadv)

/-- The same reset of both. -/
theorem reset (hallowed : allowed .reset) (h : R t u) : Both t.fullReset u.fullReset R := by
  have hrewind := hR.rewind hallowed h
  have hprimary := (Terminal.fullReset_eq (hR.parked h).1).1.2
  rw [(Terminal.fullReset_eq (hR.parked h).1).2, (Terminal.fullReset_eq (hR.parked h).2).2]
  unfold Terminal.onScreen
  rw [(hR.same hrewind).1]
  have hrun : Runs (Handler.resetAll ⟨t.rewind.toScreen, .nothing⟩)
      (Answers ⟨t.rewind.toScreen, .nothing⟩) := (hR.ok hrewind).resetAll hprimary
  apply Both.bind
  · apply Both.bind (of_runs hrun)
    rintro h₁ _ ⟨rfl, hadv⟩
    exact Both.pure (hR.commit hrewind hadv)
  · intro t₁ u₁ h₁
    rw [(hR.same h₁).2]
    exact Both.pure (hR.sink h₁ (GraphicsSink.balanced_clearStores _))

section

variable (h : R t u)
include h

theorem setStore {store : ImageStore}
    (hstore : store.Balanced) : R (t.setStore store) (u.setStore store) := by
  unfold Terminal.setStore
  rw [hR.alternate h, (hR.same h).2]
  exact hR.sink h ((hR.balanced h).setStore _ hstore)

theorem refuse : R t.refuse u.refuse := by
  unfold Terminal.refuse
  rw [(hR.same h).2]
  exact hR.sink h ⟨(hR.balanced h).primary, (hR.balanced h).alt⟩

theorem abortTransfer : R t.abortTransfer u.abortTransfer := by
  unfold Terminal.abortTransfer
  rw [(hR.same h).2]
  exact hR.sink h ⟨(hR.balanced h).primary, (hR.balanced h).alt⟩

/-- Keep part of the store of the screen now showing. -/
theorem retain (keep : Nat → Bool) :
    Both (t.store.retain keep) (u.store.retain keep) fun store store' => store' = store ∧
      store.Balanced := by
  rw [hR.store h]
  exact of_runs (((hR.balanced h).store _).retain keep)

theorem placeImage (image : StoredImage) (cmd : Command) :
    Both (t.placeImage image cmd) (u.placeImage image cmd) R := by
  unfold Terminal.placeImage
  rw [(hR.same h).1]
  apply Both.bind (of_runs (Screen.Ok.placeImage (hR.ok h) image cmd))
  rintro ⟨h₁, refused⟩ _ ⟨rfl, hadv⟩
  have hcommit := hR.commit h hadv
  apply Both.pure
  show R (if refused then (t.commit h₁).refuse else t.commit h₁)
    (if refused then (u.commit h₁).refuse else u.commit h₁)
  split
  · exact hR.refuse hcommit
  · exact hcommit

theorem deleteImages (cmd : Command) : Both (t.deleteImages cmd) (u.deleteImages cmd) R := by
  unfold Terminal.deleteImages
  rw [(hR.same h).1]
  split
  · exact Both.pure (hR.refuse h)
  · apply Both.bind (hR.onScreen (.pure fun _ hs => hs.setGrid (hs.grid.unplaceWhere _)) h)
    intro t₁ u₁ h₁
    rw [hR.grid h₁]
    apply Both.ite
    · intro _
      apply Both.bind (hR.retain h₁ _)
      rintro store _ ⟨rfl, hstore⟩
      exact Both.pure (hR.setStore h₁ hstore)
    · exact fun _ => Both.pure h₁

theorem openTransfer (cmd : Command) : Both (t.openTransfer cmd) (u.openTransfer cmd) R := by
  unfold Terminal.openTransfer
  rw [(hR.same h).2, hR.alternate h]
  apply Both.ite
  · exact fun _ => Both.pure h
  · intro _
    have hsink : R
        { t with graphics := { t.graphics with transferOnAlt := t.modes.alternateScreen } }
        { u with graphics := { t.graphics with transferOnAlt := t.modes.alternateScreen } } :=
      hR.sink h ⟨(hR.balanced h).primary, (hR.balanced h).alt⟩
    apply Both.ite
    · exact fun _ => Both.pure hsink
    · intro _
      apply Both.bind (hR.retain hsink _)
      rintro store _ ⟨rfl, hstore⟩
      exact hR.onScreen (.pure fun _ hs => hs.setGrid (hs.grid.unplaceWhere _))
        (hR.setStore hsink hstore)

theorem finishTransfer (image : StoredImage) (cmd : Command) :
    Both (t.finishTransfer image cmd) (u.finishTransfer image cmd) R := by
  unfold Terminal.finishTransfer
  rw [(hR.same h).2, hR.alternate h]
  apply Both.ite
  · exact fun _ => Both.pure (hR.refuse h)
  · intro _
    have hstored : Both
        (if cmd.imageId = 0 then pure t
          else do
            let store ← t.store.insert cmd.imageId image
            pure (t.setStore store))
        (if cmd.imageId = 0 then pure u
          else do
            let store ← u.store.insert cmd.imageId image
            pure (u.setStore store)) R := by
      apply Both.ite
      · exact fun _ => Both.pure h
      · intro _
        rw [hR.store h]
        apply Both.bind (of_runs (((hR.balanced h).store _).insert cmd.imageId image))
        rintro store _ ⟨rfl, hstore⟩
        exact Both.pure (hR.setStore h hstore)
    apply Both.bind hstored
    intro t₁ u₁ h₁
    apply Both.ite
    · exact fun _ => hR.placeImage h₁ image cmd
    · exact fun _ => Both.pure h₁

theorem transmit [Crates] (cmd : Command) (payload : List UInt8) :
    Both (t.transmit cmd payload) (u.transmit cmd payload) R := by
  apply Both.bind (hR.openTransfer h cmd)
  intro t₁ u₁ h₁
  rw [(hR.same h₁).2]
  dsimp only
  generalize t₁.graphics.assembler.feed cmd payload = fed
  obtain ⟨assembler, done⟩ := fed
  have hsink : R { t₁ with graphics := { t₁.graphics with assembler } }
      { u₁ with graphics := { t₁.graphics with assembler } } :=
    hR.sink h₁ ⟨(hR.balanced h₁).primary, (hR.balanced h₁).alt⟩
  cases done with
  | none => exact Both.pure hsink
  | some done => exact hR.finishTransfer hsink done.1 done.2

theorem putImage (cmd : Command) : Both (t.putImage cmd) (u.putImage cmd) R := by
  unfold Terminal.putImage
  rw [hR.store h]
  have hstore := ((hR.balanced h).store t.modes.alternateScreen).get cmd.imageId
  dsimp only
  have hset := hR.setStore h hstore
  cases (t.store.get cmd.imageId).2 with
  | none => exact Both.pure (hR.refuse hset)
  | some image => exact hR.placeImage hset image cmd

/-- A command that is no query with an image to answer for. -/
theorem dispatchGraphics [Crates] (cmd : Option Command)
    (payload : List UInt8) (hcmd : (Call.graphics cmd payload).asks = false) :
    Both (t.dispatchGraphics cmd payload) (u.dispatchGraphics cmd payload) R := by
  cases cmd with
  | none => exact Both.pure (hR.abortTransfer (hR.refuse h))
  | some cmd =>
    unfold Terminal.dispatchGraphics
    dsimp only
    cases haction : cmd.action with
    | transmit => exact hR.transmit h cmd payload
    | transmitAndPlace => exact hR.transmit h cmd payload
    | put => exact hR.putImage h cmd
    | delete =>
      apply Both.bind (hR.deleteImages h cmd)
      intro t₁ u₁ h₁
      exact Both.pure (hR.abortTransfer h₁)
    | query =>
      have hzero : cmd.imageId = 0 := by
        by_contra hid
        rw [Call.asks_iff.mpr ⟨cmd, rfl, haction, hid⟩] at hcmd
        cases hcmd
      dsimp only
      rw [if_pos hzero, if_pos hzero]
      exact Both.pure h
    | animation => exact Both.pure h

end

/-- Such a relation is kept by every call on the screen. -/
theorem screenBisim : ScreenBisim allowed R where
  alternate h := hR.alternate h
  screen hf h := hR.onScreen hf h
  enter parks hallowed halt h := by
    rw [Terminal.setAlternateScreen_swapEnter, Terminal.setAlternateScreen_swapEnter]
    exact hR.enter parks hallowed halt h
  leave {t u} parks hallowed halt h := by
    obtain ⟨primary, hprimary⟩ := Option.isSome_iff_exists.mp ((hR.parked h).1.trans halt)
    obtain ⟨primary', hprimary'⟩ := Option.isSome_iff_exists.mp
      ((hR.parked h).2.trans ((hR.alternate h).trans halt))
    rw [Terminal.setAlternateScreen_swapLeave (t.altGrid_freezeForSwap.trans hprimary),
      Terminal.setAlternateScreen_swapLeave (u.altGrid_freezeForSwap.trans hprimary')]
    exact hR.leave parks hallowed halt h
  hold := hR.hold
  release := hR.release
  reset hallowed h := hR.reset hallowed h

/-- Every call keeps such a relation, but for a query that is answered whatever was before. -/
theorem call [Crates] (h : R t u) (c : Call) (hc : c.asks = false)
    (hkinds : ∀ kind, c.uses kind → allowed kind) : Both (t.call c) (u.call c) R := by
  cases hgraphics : c.isGraphics with
  | false => exact hR.screenBisim.call h c hgraphics hkinds
  | true =>
    cases c with
    | graphics cmd payload => exact hR.dispatchGraphics h cmd payload hc
    | _ => cases hgraphics

end

end Echoes

/-- One that all the same commits keep. -/
structure Mirrors (allowed : Kind → Prop) (R : Terminal → Terminal → Prop) : Prop
    extends Shares allowed R where
  commit : ∀ {t u h}, R t u → Advances ⟨t.toScreen, .nothing⟩ h → R (t.commit h) (u.commit h)

namespace Mirrors

variable {allowed : Kind → Prop} {R : Terminal → Terminal → Prop} {t u : Terminal}

theorem echoes (hR : Mirrors allowed R) : Echoes allowed R where
  toShares := hR.toShares
  commit h hadv := hR.commit h hadv.toAdvances

/-- A query that is answered. -/
theorem answer (hR : Mirrors allowed R) (h : R t u) (reply : String) :
    R { t with responses := t.responses ++ [reply] }
      { u with responses := u.responses ++ [reply] } := by
  have hadv : Advances ⟨t.toScreen, .nothing⟩
      ⟨{ t.toScreen with responses := t.responses ++ [reply] }, .nothing⟩ :=
    (hR.ok h).same_advances ⟨rfl, rfl, rfl, rfl, rfl, rfl⟩ rfl rfl rfl
  have hcommit := hR.commit h hadv
  unfold Terminal.commit at hcommit
  rw [t.freeze_nothing, u.freeze_nothing] at hcommit
  have hscreen := (hR.same h).1
  obtain ⟨us, _, _, _, _, _, _, _, _, _, _, _, _, _, _, _, _, _, _⟩ := u
  cases hscreen
  exact hcommit

theorem dispatchGraphics [Crates] (hR : Mirrors allowed R) (h : R t u) (cmd : Option Command)
    (payload : List UInt8) :
    Both (t.dispatchGraphics cmd payload) (u.dispatchGraphics cmd payload) R := by
  cases hasks : (Call.graphics cmd payload).asks with
  | false => exact hR.echoes.dispatchGraphics h cmd payload hasks
  | true =>
    obtain ⟨cmd, rfl, haction, hid⟩ := Call.asks_iff.mp hasks
    unfold Terminal.dispatchGraphics
    dsimp only
    rw [haction]
    dsimp only
    rw [if_neg hid, if_neg hid]
    exact Both.pure (hR.answer h _)

/-- Such a relation is kept by every call. -/
theorem bisim [Crates] (hR : Mirrors allowed R) : Bisim allowed R where
  toScreenBisim := hR.echoes.screenBisim
  graphics cmd payload h := hR.dispatchGraphics h cmd payload

end Mirrors

/-- An invariant that everything a call is made of keeps, as far as it is allowed. -/
structure Preserves (allowed : Kind → Prop) (I : Terminal → Prop) : Prop where
  ok : ∀ {t}, I t → t.toScreen.Ok
  balanced : ∀ {t}, I t → t.graphics.Balanced
  parked : ∀ {t}, I t → t.altGrid.isSome = t.modes.alternateScreen
  commit : ∀ {t h}, I t → Advances ⟨t.toScreen, .nothing⟩ h → I (t.commit h)
  sink : ∀ {t sink}, I t → GraphicsSink.Balanced sink → I { t with graphics := sink }
  enter : ∀ {t} parks, allowed .enter → t.modes.alternateScreen = false → I t →
    I (t.freezeForSwitch.entered parks)
  leave : ∀ {t} parks, allowed .leave → t.modes.alternateScreen = true → I t →
    I (t.freezeForSwitch.left parks)
  hold : ∀ {t}, allowed .hold → I t → I (t.setSynchronizedOutput true)
  release : ∀ {t}, allowed .release → I t → I (t.setSynchronizedOutput false)
  rewind : ∀ {t}, allowed .reset → I t → I t.rewind

namespace Preserves

variable {allowed : Kind → Prop} {I : Terminal → Prop} {t : Terminal}

section

variable (hI : Preserves allowed I)
include hI

theorem mirrors : Mirrors allowed fun t u => u = t ∧ I t where
  same h := by
    obtain ⟨rfl, -⟩ := h
    exact ⟨rfl, rfl⟩
  ok h := hI.ok h.2
  balanced h := hI.balanced h.2
  parked h := by
    obtain ⟨rfl, h⟩ := h
    exact ⟨hI.parked h, hI.parked h⟩
  commit h hadv := by
    obtain ⟨rfl, h⟩ := h
    exact ⟨rfl, hI.commit h hadv⟩
  sink h hsink := by
    obtain ⟨rfl, h⟩ := h
    exact ⟨rfl, hI.sink h hsink⟩
  enter parks hallowed halt h := by
    obtain ⟨rfl, h⟩ := h
    exact ⟨rfl, hI.enter parks hallowed halt h⟩
  leave parks hallowed halt h := by
    obtain ⟨rfl, h⟩ := h
    exact ⟨rfl, hI.leave parks hallowed halt h⟩
  hold hallowed h := by
    obtain ⟨rfl, h⟩ := h
    exact ⟨rfl, hI.hold hallowed h⟩
  release hallowed h := by
    obtain ⟨rfl, h⟩ := h
    exact ⟨rfl, hI.release hallowed h⟩
  rewind hallowed h := by
    obtain ⟨rfl, h⟩ := h
    exact ⟨rfl, hI.rewind hallowed h⟩

/-- More than an invariant already known, piece by piece. -/
theorem and {J : Terminal → Prop}
    (commit : ∀ {t h}, I t → J t → Advances ⟨t.toScreen, .nothing⟩ h → J (t.commit h))
    (sink : ∀ {t sink}, I t → J t → GraphicsSink.Balanced sink → J { t with graphics := sink })
    (enter : ∀ {t} parks, allowed .enter → t.modes.alternateScreen = false → I t → J t →
      J (t.freezeForSwitch.entered parks))
    (leave : ∀ {t} parks, allowed .leave → t.modes.alternateScreen = true → I t → J t →
      J (t.freezeForSwitch.left parks))
    (hold : ∀ {t}, allowed .hold → I t → J t → J (t.setSynchronizedOutput true))
    (release : ∀ {t}, allowed .release → I t → J t → J (t.setSynchronizedOutput false))
    (rewind : ∀ {t}, allowed .reset → I t → J t → J t.rewind) :
    Preserves allowed fun t => I t ∧ J t where
  ok h := hI.ok h.1
  balanced h := hI.balanced h.1
  parked h := hI.parked h.1
  commit h hadv := ⟨hI.commit h.1 hadv, commit h.1 h.2 hadv⟩
  sink h hsink := ⟨hI.sink h.1 hsink, sink h.1 h.2 hsink⟩
  enter parks hallowed halt h :=
    ⟨hI.enter parks hallowed halt h.1, enter parks hallowed halt h.1 h.2⟩
  leave parks hallowed halt h :=
    ⟨hI.leave parks hallowed halt h.1, leave parks hallowed halt h.1 h.2⟩
  hold hallowed h := ⟨hI.hold hallowed h.1, hold hallowed h.1 h.2⟩
  release hallowed h := ⟨hI.release hallowed h.1, release hallowed h.1 h.2⟩
  rewind hallowed h := ⟨hI.rewind hallowed h.1, rewind hallowed h.1 h.2⟩

/-- Such an invariant is kept by a call. -/
theorem call [Crates] (h : I t) (c : Call)
    (hkinds : ∀ kind, c.uses kind → allowed kind) : Runs (t.call c) I := by
  refine (hI.mirrors.bisim.call ⟨rfl, h⟩ c hkinds).left.mono ?_
  rintro t' ⟨_, -, -, h'⟩
  exact h'

/-- Such an invariant is kept by every batch of calls. -/
theorem calls [Crates] (h : I t) (cs : List Call)
    (hkinds : ∀ c ∈ cs, ∀ kind, c.uses kind → allowed kind) :
    Runs (each cs t Terminal.call) I := by
  apply (hI.mirrors.bisim.calls ⟨rfl, h⟩ cs hkinds).left.mono
  rintro t₁ ⟨_, -, -, h₁⟩
  exact h₁

end

/-- An invariant that the first half of a full reset breaks and the second restores. -/
theorem callsResetting [Crates] (hI : Preserves (· ≠ .reset) I)
    (hreset : ∀ {t}, I t → Runs t.fullReset I) (h : I t) (cs : List Call) :
    Runs (each cs t Terminal.call) I := by
  have hbisim : Bisim (· ≠ .reset) fun t u => u = t ∧ I t := hI.mirrors.bisim
  have hall : Bisim (fun _ => True) fun t u => u = t ∧ I t :=
    { alternate := hbisim.alternate
      screen := hbisim.screen
      graphics := hbisim.graphics
      enter := fun parks _ => hbisim.enter parks (by decide)
      leave := fun parks _ => hbisim.leave parks (by decide)
      hold := fun _ => hbisim.hold (by decide)
      release := fun _ => hbisim.release (by decide)
      reset := by
        rintro t _ - ⟨rfl, h⟩
        exact of_runs (hreset h) }
  apply (hall.calls ⟨rfl, h⟩ cs fun _ _ _ _ => trivial).left.mono
  rintro t₁ ⟨_, -, -, h₁⟩
  exact h₁

end Preserves

end Shux.Vt
