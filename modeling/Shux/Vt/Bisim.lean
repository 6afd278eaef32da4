/-
# Carrying a relation through every call

What a call does to the terminal is made of few things: operations of the handler on the
live screen, writes to the graphics sink, the two screen switches, opening and closing a
synchronized-output window, and the full reset. A relation between two terminals that
each of these keeps is kept by every call, and so by every batch. An invariant is the case
of one terminal beside itself.
-/

import Shux.Vt.Terminal
import Shux.Vt.DispatchSpec

namespace Shux.Vt

open Checked

/-- What a call can do besides working on its screen and its images. -/
inductive Kind where
  | enter
  | leave
  | hold
  | release
  | reset
deriving DecidableEq, Repr

/-- What setting or resetting a private mode does. -/
def PrivateMode.kind (enable : Bool) : PrivateMode → Option Kind
  | .alternateScreen _ => some (if enable then .enter else .leave)
  | .synchronizedOutput => some (if enable then .hold else .release)
  | _ => none

/-- Whether a call contains a sequence of a kind. -/
def Call.uses (call : Call) (kind : Kind) : Prop :=
  match call with
  | .csi params intermediates ignore action => ignore = false ∧ ∃ enable mode p,
      Csi.decode action intermediates = some (.setPrivateMode enable) ∧ p ∈ params.flatten ∧
      PrivateMode.decode p = some mode ∧ mode.kind enable = some kind
  | .esc intermediates ignore byte =>
    ignore = false ∧ Esc.decode byte intermediates = some .fullReset ∧ kind = .reset
  | _ => False

/-- The byte counts of both stores are right. -/
structure GraphicsSink.Balanced (sink : GraphicsSink) : Prop where
  primary : sink.primaryStore.Balanced
  alt : sink.altStore.Balanced

namespace GraphicsSink.Balanced

variable {sink : GraphicsSink}

theorem store (h : sink.Balanced) (alt : Bool) : (sink.store alt).Balanced := by
  cases alt with
  | false => exact h.primary
  | true => exact h.alt

theorem setStore (h : sink.Balanced) (alt : Bool) {store : ImageStore} (hstore : store.Balanced) :
    (sink.setStore alt store).Balanced := by
  cases alt with
  | false => exact ⟨hstore, h.alt⟩
  | true => exact ⟨h.primary, hstore⟩

theorem clearAlt (h : sink.Balanced) :
    ({ sink with altStore := sink.altStore.clear } : GraphicsSink).Balanced :=
  ⟨h.primary, ImageStore.balanced_empty⟩

end GraphicsSink.Balanced

namespace Handler

/-- An operation of the handler that keeps the screen in order. -/
def Lawful (f : Handler → Checked Handler) : Prop :=
  ∀ h : Handler, h.toScreen.Ok → Runs (f h) (Answers h)

theorem Lawful.pure {f : Handler → Handler} (hf : ∀ h : Handler, h.toScreen.Ok → Answers h (f h)) :
    Lawful fun h => Pure.pure (f h) :=
  fun h hs => .pure (hf h hs)

end Handler

namespace Screen.Ok

variable {h : Handler}

open Handler

section

variable (hs : h.toScreen.Ok)
include hs

theorem setMode (mode : PrivateMode) (enable : Bool) : Answers h (h.setMode mode enable) := by
  have hsame {modes : TerminalModes} (halt : modes.alternateScreen = h.modes.alternateScreen) :
      Answers h { h with modes := modes } :=
    hs.advances_same ⟨⟨rfl, rfl, rfl, rfl, rfl, halt⟩, .refl _⟩ rfl rfl rfl
  cases mode with
  | applicationCursorKeys => exact hsame rfl
  | origin =>
    have horigin : Answers h { h with modes := { h.modes with originMode := enable } } := hsame rfl
    exact horigin.trans horigin.ok.homeCursorToOrigin
  | autoWrap => exact hsame rfl
  | cursorVisible =>
    have hvisible : Answers h { h with modes := { h.modes with cursorVisible := enable } } :=
      hsame rfl
    exact hvisible.trans (hvisible.ok.setCursor hvisible.ok.row hvisible.ok.col)
  | mouse mode | focusEvents | utf8Mouse | sgrMouse | urxvtMouse | pixelMouse | alternateScroll =>
    exact hsame rfl
  | saveCursor =>
    cases enable with
    | false => exact hs.restoreCursorState
    | true => exact hs.saveCursorState
  | alternateScreen parks => exact hs.advances_refl
  | bracketedPaste => exact hsame rfl
  | synchronizedOutput => exact hs.advances_refl

theorem restartAlternate : Runs (Terminal.restartAlternate h) (Answers h) := by
  apply Runs.bind (hs.onGrid_advances (hs.grid.clearVisible _))
  intro h₁ hadv
  exact .pure (hadv.trans (hadv.ok.setCursor hadv.ok.rows hadv.ok.cols))

theorem downBelowImage : Runs h.downBelowImage (Answers h) := by
  apply Runs.ite
  · intro _
    apply Runs.bind (.sub hs.rows)
    rintro _ rfl
    exact hs.onGrid_advances (hs.grid.scrollUpN _ _ 1)
  · intro hlt
    refine .pure (hs.setCursor ?_ hs.col)
    show h.cursor.row + 1 < h.grid.rows
    omega

theorem advancePastImage {cols rows : Nat} (hrows : 1 ≤ rows) :
    Runs (h.advancePastImage cols rows) (Answers h) := by
  apply Runs.bind (.sub hrows)
  rintro _ rfl
  have hcol : (if decide (h.grid.cols ≤ h.cursor.col + cols) = true then 0
      else h.cursor.col + cols) < h.grid.cols := by
    have hcols := hs.cols
    split
    · exact hcols
    · next hlt =>
      rw [decide_eq_true_iff] at hlt
      omega
  have hmove : Answers h (h.setCursor { h.cursor with
      col := if decide (h.grid.cols ≤ h.cursor.col + cols) = true then 0
        else h.cursor.col + cols }) :=
    hs.setCursor hs.row hcol
  exact hmove.next (hmove.ok.each _ fun _ _ hs' => hs'.downBelowImage)

theorem placeImage (image : StoredImage) (cmd : Command) :
    Runs (h.placeImage image cmd) fun out => Answers h out.1 := by
  apply Runs.bind (ImageGeometry.runs_resolve _ _ _ _)
  intro geometry _
  cases geometry with
  | none => exact .pure hs.advances_refl
  | some geometry =>
    apply Runs.ite
    · exact fun _ => .pure hs.advances_refl
    intro hcells
    apply Runs.bind (hs.grid.put _)
    rintro ⟨grid, placed⟩ hgrid
    have hput := hs.setGrid hgrid
    apply Runs.ite
    · exact fun _ => .pure hput
    intro _
    apply Runs.ite
    · exact fun _ => .pure hput
    intro _
    apply Runs.bind (hput.ok.advancePastImage (by omega))
    intro h₁ hadv
    exact .pure (hput.trans hadv)

end

end Screen.Ok

variable [Crates]

/-- A relation between terminals that everything a call on the screen is made of keeps, as far
as it is allowed. -/
structure ScreenBisim (allowed : Kind → Prop) (R : Terminal → Terminal → Prop) : Prop where
  alternate : ∀ {t u}, R t u → u.modes.alternateScreen = t.modes.alternateScreen
  screen : ∀ {t u f}, Handler.Lawful f → R t u → Both (t.onScreen f) (u.onScreen f) R
  enter : ∀ {t u} parks, allowed .enter → t.modes.alternateScreen = false → R t u →
    R ((t.freezeForSwap.swapEnter parks).setAlternateScreen true)
      ((u.freezeForSwap.swapEnter parks).setAlternateScreen true)
  leave : ∀ {t u} parks, allowed .leave → t.modes.alternateScreen = true → R t u →
    R ((t.freezeForSwap.swapLeave parks).setAlternateScreen false)
      ((u.freezeForSwap.swapLeave parks).setAlternateScreen false)
  hold : ∀ {t u}, allowed .hold → R t u →
    R (t.setSynchronizedOutput true) (u.setSynchronizedOutput true)
  release : ∀ {t u}, allowed .release → R t u →
    R (t.setSynchronizedOutput false) (u.setSynchronizedOutput false)
  reset : ∀ {t u}, allowed .reset → R t u → Both t.fullReset u.fullReset R

/-- A relation between terminals that everything a call is made of keeps, as far as it is
allowed. -/
structure Bisim (allowed : Kind → Prop) (R : Terminal → Terminal → Prop) : Prop
    extends ScreenBisim allowed R where
  graphics : ∀ {t u} cmd payload, R t u →
    Both (t.dispatchGraphics cmd payload) (u.dispatchGraphics cmd payload) R

/-- Whether a call goes to the graphics sink. -/
def Call.isGraphics : Call → Bool
  | .graphics _ _ => true
  | _ => false

section

omit [Crates]

theorem Terminal.freeze_nothing (t : Terminal) : t.freeze .nothing = t := by
  unfold Terminal.freeze
  split
  · rfl
  · rfl

theorem Terminal.onScreen_clearActive (t : Terminal) :
    (t.onScreen fun h => pure h.clearActiveGraphemeCell) =
      some { t with activeGraphemeCell := none } := by
  show some ({ t.freeze .nothing with
    toScreen := { t.toScreen with activeGraphemeCell := none } } : Terminal) = _
  rw [t.freeze_nothing]

end

namespace ScreenBisim

variable {allowed : Kind → Prop} {R : Terminal → Terminal → Prop} {t u : Terminal}

open Handler

section

omit [Crates]

theorem clearActive (hR : ScreenBisim allowed R) (h : R t u) :
    R { t with activeGraphemeCell := none } { u with activeGraphemeCell := none } := by
  have hboth := hR.screen (.pure fun _ hs => hs.clearActiveGraphemeCell) h
  rw [t.onScreen_clearActive, u.onScreen_clearActive] at hboth
  obtain ⟨_, _, ha, hb, hab⟩ := hboth
  cases ha
  cases hb
  exact hab

theorem enableAlternate (hR : ScreenBisim allowed R) (hallowed : allowed .enter) (h : R t u)
    (parks : Bool) : Both (t.enableAlternate parks) (u.enableAlternate parks) R := by
  have hsave : Both (if parks then t.onScreen fun h => pure h.saveCursorState else pure t)
      (if parks then u.onScreen fun h => pure h.saveCursorState else pure u) R := by
    apply Both.ite
    · exact fun _ => hR.screen (.pure fun _ hs => hs.saveCursorState) h
    · exact fun _ => Both.pure h
  apply Both.bind hsave
  intro t₁ u₁ h₁
  rw [hR.alternate h₁]
  apply Both.ite
  · intro _
    apply Both.ite
    · exact fun _ => hR.screen (fun _ hs => hs.restartAlternate) h₁
    · exact fun _ => Both.pure h₁
  · intro hprimary
    rw [Bool.not_eq_true] at hprimary
    exact Both.pure (hR.enter parks hallowed hprimary h₁)

theorem disableAlternate (hR : ScreenBisim allowed R) (hallowed : allowed .leave) (h : R t u)
    (parks : Bool) : Both (t.disableAlternate parks) (u.disableAlternate parks) R := by
  have hleave : R
      (if t.modes.alternateScreen then (t.freezeForSwap.swapLeave parks).setAlternateScreen false
        else t)
      (if u.modes.alternateScreen then (u.freezeForSwap.swapLeave parks).setAlternateScreen false
        else u) := by
    rw [hR.alternate h]
    split
    · next halt => exact hR.leave parks hallowed halt h
    · exact h
  apply Both.ite
  · exact fun _ => hR.screen (.pure fun _ hs => hs.restoreCursorState) hleave
  · exact fun _ => Both.pure hleave

theorem setPrivateMode (hR : ScreenBisim allowed R) (h : R t u) (enable : Bool) (p : Nat)
    (hkinds : ∀ mode kind, PrivateMode.decode p = some mode → mode.kind enable = some kind →
      allowed kind) :
    Both (Terminal.setPrivateMode enable t p) (Terminal.setPrivateMode enable u p) R := by
  unfold Terminal.setPrivateMode
  cases hmode : PrivateMode.decode p with
  | none => exact Both.pure h
  | some mode =>
    cases mode with
    | alternateScreen parks =>
      cases enable with
      | true => exact hR.enableAlternate (hkinds _ _ hmode rfl) h parks
      | false => exact hR.disableAlternate (hkinds _ _ hmode rfl) h parks
    | synchronizedOutput =>
      cases enable with
      | true => exact Both.pure (hR.hold (hkinds _ _ hmode rfl) h)
      | false => exact Both.pure (hR.release (hkinds _ _ hmode rfl) h)
    | _ => exact hR.screen (.pure fun _ hs => hs.setMode _ enable) h

end

theorem csiDispatch (hR : ScreenBisim allowed R) (h : R t u) (params : Params)
    (intermediates : List UInt8) (ignore : Bool) (action : Char)
    (hkinds : ∀ kind, (Call.csi params intermediates ignore action).uses kind → allowed kind) :
    Both (t.csiDispatch params intermediates ignore action)
      (u.csiDispatch params intermediates ignore action) R := by
  have hclear : R
      (if continuesTheCluster action intermediates then t
        else { t with activeGraphemeCell := none })
      (if continuesTheCluster action intermediates then u
        else { u with activeGraphemeCell := none }) := by
    split
    · exact h
    · exact hR.clearActive h
  unfold Terminal.csiDispatch
  apply Both.ite
  · exact fun _ => Both.pure hclear
  intro hignore
  rw [Bool.not_eq_true] at hignore
  cases hop : Csi.decode action intermediates with
  | none => exact Both.pure hclear
  | some op =>
    cases op with
    | setPrivateMode enable =>
      apply Both.each hclear
      intro p hp t₁ u₁ h₁
      apply hR.setPrivateMode h₁ enable p
      intro mode kind hmode hkind
      exact hkinds kind ⟨hignore, enable, mode, p, hop, hp, hmode, hkind⟩
    | _ => exact hR.screen (fun _ hs => hs.csi _ params) hclear

omit [Crates] in
theorem escDispatch (hR : ScreenBisim allowed R) (h : R t u) (intermediates : List UInt8)
    (ignore : Bool) (byte : UInt8)
    (hkinds : ∀ kind, (Call.esc intermediates ignore byte).uses kind → allowed kind) :
    Both (t.escDispatch intermediates ignore byte) (u.escDispatch intermediates ignore byte) R := by
  have hclear := hR.clearActive h
  unfold Terminal.escDispatch
  apply Both.ite
  · exact fun _ => Both.pure hclear
  intro hignore
  rw [Bool.not_eq_true] at hignore
  cases hop : Esc.decode byte intermediates with
  | none => exact Both.pure hclear
  | some op =>
    cases op with
    | fullReset => exact hR.reset (hkinds .reset ⟨hignore, hop, rfl⟩) hclear
    | _ => exact hR.screen (fun _ hs => hs.esc _) hclear

/-- A call that does not go to the graphics sink. -/
theorem call (hR : ScreenBisim allowed R) (h : R t u) (c : Call) (hc : c.isGraphics = false)
    (hkinds : ∀ kind, c.uses kind → allowed kind) : Both (t.call c) (u.call c) R := by
  cases c with
  | print ch => exact hR.screen (fun _ hs => hs.print ch) h
  | execute byte => exact hR.screen (fun _ hs => hs.execute byte) h
  | csi params intermediates ignore action =>
    exact hR.csiDispatch h params intermediates ignore action hkinds
  | esc intermediates ignore byte => exact hR.escDispatch h intermediates ignore byte hkinds
  | osc params bell => exact hR.screen (.pure fun _ hs => hs.oscDispatch params bell) h
  | hook intermediates ignore action =>
    exact hR.screen (.pure fun _ hs => hs.hook intermediates ignore action) h
  | put byte => exact hR.screen (.pure fun _ hs => hs.putDcs byte) h
  | unhook => exact hR.screen (.pure fun _ hs => hs.unhook) h
  | graphics cmd payload => cases hc
  | status reply =>
    cases reply with
    | none => exact hR.screen (.pure fun _ hs => hs.advances_refl) h
    | some response => exact hR.screen (.pure fun _ hs => hs.pushResponse response) h

end ScreenBisim

namespace Bisim

variable {allowed : Kind → Prop} {R : Terminal → Terminal → Prop} {t u : Terminal}

theorem call (hR : Bisim allowed R) (h : R t u) (c : Call)
    (hkinds : ∀ kind, c.uses kind → allowed kind) : Both (t.call c) (u.call c) R := by
  cases hc : c.isGraphics with
  | false => exact hR.toScreenBisim.call h c hc hkinds
  | true =>
    cases c with
    | graphics cmd payload => exact hR.graphics cmd payload h
    | _ => cases hc

theorem calls (hR : Bisim allowed R) (h : R t u) (cs : List Call)
    (hkinds : ∀ c ∈ cs, ∀ kind, c.uses kind → allowed kind) :
    Both (each cs t Terminal.call) (each cs u Terminal.call) R :=
  Both.each h fun c hc _ _ h' => hR.call h' c (hkinds c hc)

end Bisim

end Shux.Vt
