/-
# What a sequence leaves alone

Most sequences neither print nor touch what printing remembers. They keep the preceding
character, and they leave a pending wrap where it was or drop it. `Settles` says this of one
operation of the handler. Nothing is asked of the screen for it, so the lemmas say what an
operation returns, if it returns.
-/

import Shux.Vt.Geometry

namespace Shux.Vt

open Checked

namespace Cursor

/-- A pending wrap stands in the last of `n` columns, live or saved. -/
structure Edge (n : Nat) (cursor : Cursor) : Prop where
  live : cursor.autoWrapPending = true → cursor.col + 1 = n
  saved : ∀ saved, cursor.saved = some saved → saved.autoWrapPending = true → saved.col + 1 = n

/-- A cursor that follows another one. -/
def Settles (c c' : Cursor) : Prop := ∀ n, c.Edge n → c'.Edge n

variable {c c' c'' : Cursor}

theorem Settles.refl (c : Cursor) : Settles c c := fun _ h => h

theorem Settles.trans (h : Settles c c') (h' : Settles c' c'') : Settles c c'' :=
  fun n hedge => h' n (h n hedge)

/-- The cursor may go anywhere once it has dropped the wrap. -/
theorem settles_move (hpending : c'.autoWrapPending = false) (hsaved : c'.saved = c.saved) :
    Settles c c' := by
  refine fun n h => ⟨fun hlive => ?_, hsaved ▸ h.saved⟩
  rw [hpending] at hlive
  cases hlive

/-- A cursor that stays in its column may change its row, its shape and its pen. -/
theorem settles_stay (hcol : c'.col = c.col) (hpending : c'.autoWrapPending = c.autoWrapPending)
    (hsaved : c'.saved = c.saved) : Settles c c' := by
  refine fun n h => ⟨fun hlive => ?_, hsaved ▸ h.saved⟩
  rw [hcol]
  exact h.live (hpending ▸ hlive)

theorem edge_new (n : Nat) : Cursor.new.Edge n where
  live h := by cases h
  saved _ h := by cases h

theorem settles_save (c : Cursor) (originMode : Bool) (charsets : TerminalCharsets) :
    Settles c (c.save originMode charsets) := by
  refine fun n h => ⟨h.live, fun saved hsaved => ?_⟩
  cases hsaved
  exact h.live

/-- A new cursor with the save slot of another one. -/
theorem settles_restart (c : Cursor) : Settles c { Cursor.new with saved := c.saved } :=
  fun _ h => ⟨fun hlive => (by cases hlive), h.saved⟩

theorem edge_clamp (c : Cursor) (rows cols n : Nat) : (c.clamp rows cols).Edge n where
  live h := by cases h
  saved := by
    intro saved hsaved hpending
    obtain ⟨old, -, rfl⟩ := Option.map_eq_some_iff.mp hsaved
    cases hpending

end Cursor

namespace Handler

/-- What follows an operation that prints nothing. -/
structure Settles (h h' : Handler) : Prop where
  lastGraphic : h'.lastGraphic = h.lastGraphic
  cursor : h.cursor.Settles h'.cursor

/-- The same, with the cursor still on its way. -/
structure Moves (h h' : Handler) : Prop where
  lastGraphic : h'.lastGraphic = h.lastGraphic
  saved : h'.cursor.saved = h.cursor.saved

variable {h h' h'' : Handler}

theorem Settles.refl (h : Handler) : Settles h h := ⟨rfl, .refl _⟩

theorem Settles.trans (hs : Settles h h') (hs' : Settles h' h'') : Settles h h'' :=
  ⟨hs'.lastGraphic.trans hs.lastGraphic, hs.cursor.trans hs'.cursor⟩

theorem Moves.settles (hm : Moves h h') (hpending : h'.cursor.autoWrapPending = false) :
    Settles h h' :=
  ⟨hm.lastGraphic, Cursor.settles_move hpending hm.saved⟩

theorem settles_foldl {ι : Type} {f : Handler → ι → Handler} (is : List ι) (h : Handler)
    (hf : ∀ h i, Settles h (f h i)) : Settles h (is.foldl f h) := by
  induction is generalizing h with
  | nil => exact .refl h
  | cons i is ih => exact (hf h i).trans (ih (f h i))

section

variable (h)

theorem settles_onGrid (f : Grid → Checked Grid) : Yields (h.onGrid f) (Settles h) :=
  .after fun _ => .pure ⟨rfl, .refl _⟩

theorem moves_onGrid (f : Grid → Checked Grid) : Yields (h.onGrid f) (Moves h) :=
  .after fun _ => .pure ⟨rfl, rfl⟩

/-- The cursor in another column, without a wrap pending. -/
theorem settles_col (col : Nat) : Settles h (h.setCol col) :=
  ⟨rfl, Cursor.settles_move rfl rfl⟩

/-- The cursor in another column, once that one is known. -/
theorem settles_toCol (x : Checked Nat) (f : Nat → Nat) :
    Yields (do
      let col ← x
      pure (h.setCol (f col))) (Settles h) :=
  .after fun _ => .pure (h.settles_col _)

theorem settles_saveCursorState : Settles h h.saveCursorState :=
  ⟨rfl, Cursor.settles_save _ _ _⟩

/-- A restored wrap is dropped when the clamp moved the cursor. -/
theorem settles_restoreCursorState : Settles h h.restoreCursorState := by
  unfold restoreCursorState Cursor.restore
  cases hsaved : h.cursor.saved with
  | none => exact ⟨rfl, .refl _⟩
  | some saved =>
    refine ⟨rfl, fun n hedge => ⟨fun hlive => ?_, fun saved' hsaved' => ?_⟩⟩
    · have hboth : (saved.autoWrapPending && (min saved.row (h.grid.rows - 1) == saved.row &&
          min saved.col (h.grid.cols - 1) == saved.col)) = true := hlive
      simp only [Bool.and_eq_true, beq_iff_eq] at hboth
      show min saved.col (h.grid.cols - 1) + 1 = n
      rw [hboth.2.2]
      exact hedge.saved saved hsaved hboth.1
    · exact hedge.saved saved' (hsaved.trans hsaved')

theorem settles_screenAlignmentPattern : Yields h.screenAlignmentPattern (Settles h) := by
  refine (h.moves_onGrid _).bind fun h₁ hm => .pure ?_
  exact ⟨hm.lastGraphic, Cursor.settles_move rfl hm.saved⟩

theorem settles_linefeed : Yields h.linefeed (Settles h) := by
  have hmove : Yields (if h.cursor.row = h.scrollRegion.bottom then
      h.onGrid fun g => g.scrollUp h.scrollRegion.top h.scrollRegion.bottom
    else do
      let last ← sub h.grid.rows 1
      pure (if h.cursor.row < last then h.setCursor { h.cursor with row := h.cursor.row + 1 }
        else h)) (Moves h) := by
    refine .ite (fun _ => h.moves_onGrid _) fun _ => .after fun last => .pure ?_
    split
    · exact ⟨rfl, rfl⟩
    · exact ⟨rfl, rfl⟩
  refine hmove.bind fun h₁ hm => .pure (Moves.settles ?_ rfl)
  cases h₁.modes.newlineMode with
  | true | false => exact ⟨hm.lastGraphic, hm.saved⟩

theorem settles_reverseIndex : Yields h.reverseIndex (Settles h) := by
  have hmove : Yields (if h.cursor.row = h.scrollRegion.top then
      h.onGrid fun g => g.scrollDown h.scrollRegion.top h.scrollRegion.bottom
    else if 0 < h.cursor.row then do
      let row ← sub h.cursor.row 1
      pure (h.setCursor { h.cursor with row })
    else pure h) (Moves h) := by
    refine .ite (fun _ => h.moves_onGrid _) fun _ => .ite (fun _ => ?_) fun _ => ?_
    · exact .after fun row => .pure ⟨rfl, rfl⟩
    · exact .pure ⟨rfl, rfl⟩
  exact hmove.bind fun h₁ hm =>
    .pure (Moves.settles ⟨hm.lastGraphic, hm.saved⟩ rfl)

theorem settles_eraseInRow (col count : Nat) : Yields (h.eraseInRow col count) (Settles h) :=
  h.settles_onGrid _

theorem settles_eraseToRight : Yields h.eraseToRight (Settles h) :=
  .after fun _ => h.settles_eraseInRow _ _

theorem settles_eraseInDisplay (param : Nat) : Yields (h.eraseInDisplay param) (Settles h) := by
  unfold eraseInDisplay
  dsimp only
  split
  · refine h.settles_eraseToRight.bind fun h₁ hs => .ite (fun _ => ?_) fun _ => .pure hs
    exact (h₁.settles_onGrid _).mono fun _ hs' => hs.trans hs'
  · refine Yields.bind (P := Settles h) (.ite (fun _ => ?_) fun _ => .pure (.refl h)) ?_
    · exact .after fun row => h.settles_onGrid _
    · exact fun h₁ hs => (h₁.settles_eraseInRow _ _).mono fun _ hs' => hs.trans hs'
  · exact h.settles_onGrid _
  · refine (h.settles_onGrid _).bind fun h₁ hs => ?_
    exact (h₁.settles_onGrid _).mono fun _ hs' => hs.trans hs'
  · exact .pure (.refl h)

theorem settles_eraseInLine (param : Nat) : Yields (h.eraseInLine param) (Settles h) := by
  unfold eraseInLine
  split
  · exact h.settles_eraseToRight
  · exact h.settles_eraseInRow _ _
  · exact h.settles_eraseInRow _ _
  · exact .pure (.refl h)

theorem settles_scrollFromCursor (n : Nat) (scroll : Grid → Nat → Nat → Nat → Checked Grid) :
    Yields (h.scrollFromCursor n scroll) (Settles h) := by
  unfold scrollFromCursor
  split
  · exact .pure (.refl h)
  · exact h.settles_onGrid _

theorem settles_scrollInRegion (n : Nat) (scroll : Grid → Nat → Nat → Nat → Checked Grid) :
    Yields (h.scrollInRegion n scroll) (Settles h) :=
  h.settles_onGrid _

theorem settles_tabClear (param : Nat) : Settles h (h.tabClear param) := by
  unfold tabClear
  split
  · exact ⟨rfl, .refl _⟩
  · exact ⟨rfl, .refl _⟩
  · exact .refl h

theorem settles_setPen (pen : Pen) (wrote : Bool) : Settles h (h.setPen pen wrote) := by
  unfold setPen
  split
  · exact ⟨rfl, Cursor.settles_stay rfl rfl rfl⟩
  · exact .refl h

theorem settles_selectRendition (params : Params) : Settles h (h.selectRendition params) :=
  h.settles_setPen _ _

theorem settles_setCursorHyperlink (hyperlink : Option String) :
    Settles h (h.setCursorHyperlink hyperlink) :=
  h.settles_setPen _ _

theorem settles_pushResponse (response : String) : Settles h (h.pushResponse response) := by
  unfold pushResponse
  split
  · exact .refl h
  · exact ⟨rfl, .refl _⟩

theorem settles_answerPlain (params : Params) (response : String) :
    Settles h (h.answerPlain params response) := by
  unfold answerPlain
  split
  · exact h.settles_pushResponse _
  · exact .refl h

theorem settles_reportCursorPosition (isPrivate : Bool) :
    Settles h (h.reportCursorPosition isPrivate) := by
  unfold reportCursorPosition
  dsimp only
  split
  · exact h.settles_pushResponse _
  · exact h.settles_pushResponse _

theorem settles_statusReport (param : Nat) : Settles h (h.statusReport param) := by
  unfold statusReport
  split
  · exact h.settles_pushResponse _
  · exact h.settles_reportCursorPosition false
  · exact .refl h

theorem settles_privateStatusReport (param : Nat) : Settles h (h.privateStatusReport param) := by
  unfold privateStatusReport
  split
  · exact h.settles_reportCursorPosition true
  all_goals first
    | exact h.settles_pushResponse _
    | exact .refl h

theorem settles_reportMode (mode : Nat) (isPrivate : Bool) :
    Settles h (h.reportMode mode isPrivate) := by
  unfold reportMode
  split
  · exact h.settles_pushResponse _
  · exact h.settles_pushResponse _

theorem settles_setScrollRegion (params : Params) : Settles h (h.setScrollRegion params) := by
  unfold setScrollRegion
  split
  · exact .refl h
  · dsimp only
    split
    · exact ⟨rfl, Cursor.settles_move rfl rfl⟩
    · exact .refl h

end

theorem settles_setStandardMode (enable : Bool) (h : Handler) (param : Nat) :
    Settles h (setStandardMode enable h param) := by
  unfold setStandardMode
  split
  · exact ⟨rfl, .refl _⟩
  · exact ⟨rfl, .refl _⟩
  · exact .refl h

section

variable (h)

/-- Every control sequence but the repeat. -/
theorem settles_csi [Crates] {op : Csi} (params : Params) (hop : op ≠ .repeatChar) :
    Yields (h.csi op params) (Settles h) := by
  have hmove : ∀ row col, Settles h (h.setCursor { h.cursor with
      row, col, autoWrapPending := false }) :=
    fun row col => ⟨rfl, Cursor.settles_move rfl rfl⟩
  have hgrid (f : Grid → Checked Grid) : Yields (h.onGrid f) (Settles h) := h.settles_onGrid f
  cases op with
  | cursorUp | cursorDown => exact .pure (hmove _ _)
  | cursorForward => exact h.settles_toCol _ _
  | cursorBackward => exact .pure (hmove _ _)
  | nextLine | previousLine => exact .pure ⟨rfl, Cursor.settles_move rfl rfl⟩
  | columnAbsolute => exact h.settles_toCol _ _
  | forwardTab | backwardTab => exact h.settles_toCol _ id
  | cursorPosition => exact .after fun _ => .pure (hmove _ _)
  | eraseDisplay => exact h.settles_eraseInDisplay _
  | eraseLine => exact h.settles_eraseInLine _
  | insertLines | deleteLines => exact h.settles_scrollFromCursor _ _
  | scrollUp | scrollDown => exact h.settles_scrollInRegion _ _
  | insertChars => exact hgrid fun g => g.insertChars h.cursor.row h.cursor.col _
  | deleteChars => exact hgrid fun g => g.deleteChars h.cursor.row h.cursor.col _
  | eraseChars => exact h.settles_eraseInRow _ _
  | repeatChar => exact absurd rfl hop
  | rowAbsolute => exact .pure (hmove _ _)
  | tabClear => exact .pure (h.settles_tabClear _)
  | saveCursor =>
    apply Yields.pure
    split
    · exact h.settles_saveCursorState
    · exact .refl h
  | restoreCursor =>
    apply Yields.pure
    split
    · exact h.settles_restoreCursorState
    · exact .refl h
  | rendition => exact .pure (h.settles_selectRendition _)
  | deviceAttributes | secondaryAttributes => exact .pure (h.settles_answerPlain _ _)
  | statusReport => exact .pure (settles_foldl _ h settles_statusReport)
  | privateStatusReport => exact .pure (settles_foldl _ h settles_privateStatusReport)
  | scrollRegion => exact .pure (h.settles_setScrollRegion _)
  | setMode enable => exact .pure (settles_foldl _ h (settles_setStandardMode enable))
  | setPrivateMode enable => exact .pure (.refl h)
  | cursorStyle => exact .pure ⟨rfl, Cursor.settles_stay rfl rfl rfl⟩
  | version => exact .pure (h.settles_answerPlain _ _)
  | requestMode isPrivate =>
    exact .pure (settles_foldl _ h fun h mode => h.settles_reportMode mode isPrivate)

theorem settles_control (op : Control) : Yields (h.control op) (Settles h) := by
  cases op with
  | backspace => exact .ite (fun _ => h.settles_toCol _ id) fun _ => .pure (.refl h)
  | tab => exact h.settles_toCol _ id
  | linefeed => exact h.settles_linefeed
  | carriageReturn => exact .pure (h.settles_col 0)
  | shift slot => exact .pure ⟨rfl, .refl _⟩

theorem settles_execute (byte : UInt8) : Yields (h.execute byte) (Settles h) := by
  have hclear : Settles h h.clearActiveGraphemeCell := ⟨rfl, .refl _⟩
  unfold execute
  dsimp only
  split
  · exact (settles_control _ _).mono fun _ hs => hclear.trans hs
  · exact .pure hclear

theorem settles_esc (op : Esc) : Yields (h.esc op) (Settles h) := by
  cases op with
  | saveCursor => exact .pure h.settles_saveCursorState
  | restoreCursor => exact .pure h.settles_restoreCursorState
  | alignmentPattern => exact h.settles_screenAlignmentPattern
  | designate slot final =>
    cases slot with
    | g0 | g1 => exact .pure ⟨rfl, .refl _⟩
  | keypad application | tabSet => exact .pure ⟨rfl, .refl _⟩
  | reverseIndex => exact h.settles_reverseIndex
  | index => exact h.settles_linefeed
  | nextLine => exact (settles_linefeed _).mono fun _ hs => (h.settles_col 0).trans hs
  | fullReset => exact .pure (.refl h)

theorem settles_setMode (mode : PrivateMode) (enable : Bool) :
    Settles h (h.setMode mode enable) := by
  cases mode with
  | origin => exact ⟨rfl, Cursor.settles_move rfl rfl⟩
  | cursorVisible => exact ⟨rfl, Cursor.settles_stay rfl rfl rfl⟩
  | saveCursor =>
    cases enable with
    | true => exact h.settles_saveCursorState
    | false => exact h.settles_restoreCursorState
  | _ => exact ⟨rfl, .refl _⟩

theorem settles_wrapToNextLine : Yields h.wrapToNextLine (Settles h) := by
  have hcol : Settles h (h.clearActiveGraphemeCell.setCol 0) :=
    ⟨rfl, Cursor.settles_move rfl rfl⟩
  unfold wrapToNextLine
  refine (settles_onGrid _ _).bind fun h₁ hwrapped => ?_
  have h₁s := hcol.trans hwrapped
  refine .ite (fun _ => ?_) fun _ => .ite (fun _ => .pure ?_) fun _ => .pure h₁s
  · exact (h₁.settles_onGrid _).mono fun _ hs => h₁s.trans hs
  · exact h₁s.trans ⟨rfl, Cursor.settles_stay rfl rfl rfl⟩

/-- The rest of a pending wrap. -/
theorem settles_resolvePendingWrap : Yields h.resolvePendingWrap (Settles h) := by
  unfold resolvePendingWrap
  refine .ite (fun _ => .ite (fun _ => ?_) fun _ => .pure ?_) fun _ => .pure (.refl h)
  · exact h.settles_wrapToNextLine
  · exact ⟨rfl, Cursor.settles_move rfl rfl⟩

theorem settles_endGlyph : Settles h h.endGlyph :=
  ⟨rfl, Cursor.settles_move rfl rfl⟩

end

/-! ## Moving past a picture -/

/-- The cursor past a picture of `cols` columns: right of it, or in the first column. The flag
of a pending wrap is as it was. -/
structure PastImage (h : Handler) (cols : Nat) (h' : Handler) : Prop extends Moves h h' where
  col : h'.cursor.col = if h.grid.cols ≤ h.cursor.col + cols then 0 else h.cursor.col + cols
  pending : h'.cursor.autoWrapPending = h.cursor.autoWrapPending

theorem PastImage.downBelowImage {cols : Nat} (hp : PastImage h cols h') :
    Yields h'.downBelowImage (PastImage h cols) := by
  refine .ite (fun _ => .after fun last => .after fun grid => .pure ?_) fun _ => .pure ?_
  all_goals exact ⟨⟨hp.lastGraphic, hp.saved⟩, hp.col, hp.pending⟩

theorem pastImage_advancePastImage (h : Handler) (cols rows : Nat) :
    Yields (h.advancePastImage cols rows) (PastImage h cols) := by
  refine .after fun above => .each (PastImage h cols) ?_ fun _ _ h₁ hp => hp.downBelowImage
  refine ⟨⟨rfl, rfl⟩, ?_, rfl⟩
  show (if decide (h.grid.cols ≤ h.cursor.col + cols) = true then 0 else h.cursor.col + cols) = _
  simp only [decide_eq_true_iff]

/-- Marks for repaint are no text. -/
theorem settles_repaint (h : Handler) : Settles h h.repaint := ⟨rfl, .refl _⟩

theorem settles_dynamicColor (h : Handler) (selector : String) (param : List UInt8) (bell : Bool)
    (shown : Rgb) (current : Option Rgb) (set : Rgb → TerminalDefaultColors) :
    Settles h (h.dynamicColor selector param bell shown current set) := by
  unfold dynamicColor
  split
  · exact h.settles_pushResponse _
  · split
    · exact .refl h
    · split
      · exact .refl h
      · next color _ _ =>
        have hcolors : Settles h (h.setColors (set color)) := ⟨rfl, .refl _⟩
        exact hcolors.trans (settles_repaint _)

theorem settles_resetColor (h : Handler) (current : Option Rgb) (colors : TerminalDefaultColors) :
    Settles h (h.resetColor current colors) := by
  have hcolors : Settles h (h.setColors colors) := ⟨rfl, .refl _⟩
  unfold resetColor
  dsimp only
  split
  · exact hcolors.trans (settles_repaint _)
  · exact hcolors

theorem settles_paletteEntry (bell : Bool) (h : Handler) (entry : List UInt8 × List UInt8) :
    Settles h (paletteEntry bell h entry) := by
  unfold paletteEntry
  split
  · exact .refl h
  · split
    · exact h.settles_pushResponse _
    · split
      · have hnote : Settles h { h with paletteOverridden := true } :=
          ⟨rfl, .refl _⟩
        exact hnote.trans (settles_repaint _)
      · exact .refl h

theorem settles_oscHyperlink (h : Handler) (params : List (List UInt8)) :
    Settles h (h.oscHyperlink params) := by
  unfold oscHyperlink
  dsimp only
  split
  · exact .refl h
  split
  · exact .refl h
  split
  · exact h.settles_setCursorHyperlink _
  split
  · exact .refl h
  split
  · exact .refl h
  · exact h.settles_setCursorHyperlink _

theorem settles_oscTitle (h : Handler) (title : Option (List UInt8)) :
    Settles h (h.oscTitle title) := by
  unfold oscTitle
  split
  · exact .refl h
  · exact ⟨rfl, .refl _⟩

theorem settles_oscDispatch (h : Handler) (params : List (List UInt8)) (bell : Bool) :
    Settles h (h.oscDispatch params bell) := by
  unfold oscDispatch
  split
  · exact .refl h
  dsimp only
  refine iteInduction (fun _ => h.settles_oscTitle _) fun _ => ?_
  iterate 3
    refine iteInduction (fun _ => ?_) fun _ => ?_
    · split
      · exact .refl h
      · exact h.settles_dynamicColor _ _ _ _ _ _
  iterate 3 refine iteInduction (fun _ => h.settles_resetColor _ _) fun _ => ?_
  refine iteInduction (fun _ => ?_) fun _ => ?_
  · exact settles_foldl _ h (settles_paletteEntry bell)
  · exact iteInduction (fun _ => h.settles_oscHyperlink _) fun _ => .refl h

theorem settles_hook (h : Handler) (intermediates : List UInt8) (ignore : Bool) (action : Char) :
    Settles h (h.hook intermediates ignore action) := by
  unfold hook
  split
  · exact ⟨rfl, .refl _⟩
  · exact ⟨rfl, .refl _⟩

theorem settles_putDcs (h : Handler) (byte : UInt8) : Settles h (h.putDcs byte) := by
  unfold putDcs
  split
  · exact .refl h
  split
  · exact .refl h
  split
  · exact ⟨rfl, .refl _⟩
  · exact ⟨rfl, .refl _⟩

theorem settles_unhook (h : Handler) : Settles h h.unhook := by
  unfold unhook
  split
  · exact .refl h
  · have hdone : Settles h { h with dcsState := none } := ⟨rfl, .refl _⟩
    dsimp only
    split_ifs
    · exact hdone
    · exact hdone.trans (settles_pushResponse _ _)
    · exact hdone.trans (settles_pushResponse _ _)
    · exact hdone

theorem settles_status (h : Handler) (reply : Option String) :
    Settles h ((reply.map h.pushResponse).getD h) := by
  cases reply with
  | none => exact .refl h
  | some reply => exact h.settles_pushResponse reply

end Handler

namespace Terminal

/-- A pending wrap stands in the last of `n` columns, for the live cursor and the parked one. -/
def Edges (n : Nat) (t : Terminal) : Prop :=
  t.cursor.Edge n ∧ ∀ c, t.altCursor = some c → c.Edge n

/-- What follows on the cursors of a terminal. -/
structure Follows (t t' : Terminal) : Prop where
  cols : t'.cols = t.cols
  edges : ∀ n, t.Edges n → t'.Edges n

/-- What follows a call that prints nothing. -/
structure Settles (t t' : Terminal) : Prop extends Follows t t' where
  lastGraphic : t'.lastGraphic = t.lastGraphic

variable {t t' t'' : Terminal}

theorem Follows.trans (h : Follows t t') (h' : Follows t' t'') : Follows t t'' :=
  ⟨h'.cols.trans h.cols, fun n ht => h'.edges n (h.edges n ht)⟩

theorem Settles.trans (h : Settles t t') (h' : Settles t' t'') : Settles t t'' :=
  ⟨h.toFollows.trans h'.toFollows, h'.lastGraphic.trans h.lastGraphic⟩

/-- Nothing changed that a sequence could leave alone. -/
theorem settles_same (hsame : (t'.cols, t'.cursor, t'.altCursor, t'.lastGraphic) =
    (t.cols, t.cursor, t.altCursor, t.lastGraphic)) : Settles t t' := by
  simp only [Prod.mk.injEq] at hsame
  obtain ⟨hcols, hcursor, halt, hlast⟩ := hsame
  refine ⟨⟨hcols, fun _ h => ?_⟩, hlast⟩
  unfold Edges
  rw [hcursor, halt]
  exact h

theorem Settles.refl (t : Terminal) : Settles t t := settles_same rfl

/-- The screen an operation of the handler left, beside the cursor that was parked. -/
theorem edges_commit {n : Nat} {h' : Handler} (hcursor : h'.cursor.Edge n) (ht : t.Edges n) :
    (t.commit h').Edges n := by
  rw [commit, freeze_eq]
  exact ⟨hcursor, ht.2⟩

theorem follows_commit {h' : Handler} (hs : t.cursor.Settles h'.cursor) :
    Follows t (t.commit h') where
  cols := by rw [commit, freeze_eq]
  edges n ht := edges_commit (hs n ht.1) ht

theorem settles_commit {h' : Handler} (hs : Handler.Settles ⟨t.toScreen, .nothing⟩ h') :
    Settles t (t.commit h') :=
  ⟨follows_commit hs.cursor, hs.lastGraphic⟩

theorem settles_onScreen {f : Handler → Checked Handler}
    (hf : Yields (f ⟨t.toScreen, .nothing⟩) (Handler.Settles ⟨t.toScreen, .nothing⟩)) :
    Yields (t.onScreen f) (Settles t) :=
  hf.bind fun _ hs => .pure (settles_commit hs)

section

variable (t)

theorem settles_freeze (touched : Touched) : Settles t (t.freeze touched) := by
  rw [freeze_eq]
  exact settles_same rfl

theorem settles_freezeAltFlag : Settles t t.freezeAltFlag := by
  rw [freezeAltFlag_eq]
  exact settles_same rfl

theorem settles_freezeWholePresentation : Settles t t.freezeWholePresentation :=
  (t.settles_freeze _).trans (settles_freezeAltFlag _)

theorem settles_swapEnter (parks : Bool) : Settles t (t.swapEnter parks) := by
  rw [swapEnter_eq]
  refine ⟨⟨rfl, fun n ht => ?_⟩, rfl⟩
  cases parks with
  | true =>
    refine ⟨Cursor.settles_restart t.cursor n ht.1, fun c hc => ?_⟩
    cases hc
    exact ht.1
  | false => exact ⟨ht.1, fun c hc => by cases hc⟩

theorem settles_unparkGrid : Settles t t.unparkGrid := by
  unfold unparkGrid
  split
  · exact .refl t
  · exact settles_same rfl

theorem settles_swapLeave (restores : Bool) : Settles t (t.swapLeave restores) := by
  have hunpark : Settles t t.clearAltImages.unparkGrid :=
    (settles_same rfl : Settles t t.clearAltImages).trans (settles_unparkGrid _)
  refine hunpark.trans ?_
  unfold swapLeave
  generalize t.clearAltImages.unparkGrid = u
  cases restores with
  | true =>
    refine ⟨⟨rfl, fun n hu => ⟨?_, fun c hc => by cases hc⟩⟩, rfl⟩
    show (u.altCursor.getD u.cursor).Edge n
    cases halt : u.altCursor with
    | none => exact hu.1
    | some c => exact hu.2 c halt
  | false => exact ⟨⟨rfl, fun _ hu => ⟨hu.1, fun c hc => by cases hc⟩⟩, rfl⟩

theorem settles_setAlternateScreen (on : Bool) : Settles t (t.setAlternateScreen on) :=
  t.settles_freezeAltFlag.trans (settles_same rfl)

end

theorem settles_restartAlternate (h : Handler) : Yields (restartAlternate h) h.Settles := by
  have hgrid : Yields (h.onGrid fun g => g.clearVisible h.cursor.style.bg) fun h₁ =>
      ∃ grid, h₁ = h.setGrid grid :=
    .after fun grid => .pure ⟨grid, rfl⟩
  refine hgrid.bind fun h₁ heq => .pure ?_
  obtain ⟨grid, rfl⟩ := heq
  exact ⟨rfl, Cursor.settles_restart _⟩

theorem settles_enableAlternate (t : Terminal) (parks : Bool) :
    Yields (t.enableAlternate parks) (Settles t) := by
  have hsave : Yields (if parks then t.onScreen fun h => pure h.saveCursorState else pure t)
      (Settles t) := by
    refine .ite (fun _ => ?_) fun _ => .pure (.refl t)
    exact settles_onScreen (.pure (Handler.settles_saveCursorState _))
  refine hsave.bind fun u hu => .ite (fun _ => .ite (fun _ => ?_) fun _ => .pure hu) fun _ => ?_
  · exact (settles_onScreen (settles_restartAlternate _)).mono fun _ hs => hu.trans hs
  · refine .pure (hu.trans ?_)
    exact ((u.settles_freeze _).trans (settles_swapEnter _ parks)).trans
      (settles_setAlternateScreen _ true)

theorem settles_disableAlternate (t : Terminal) (parks : Bool) :
    Yields (t.disableAlternate parks) (Settles t) := by
  have hleave : Settles t (if t.modes.alternateScreen then
      (t.freezeForSwap.swapLeave parks).setAlternateScreen false else t) := by
    split
    · exact ((t.settles_freeze _).trans (settles_swapLeave _ parks)).trans
        (settles_setAlternateScreen _ false)
    · exact .refl t
  unfold disableAlternate
  generalize (if t.modes.alternateScreen then
    (t.freezeForSwap.swapLeave parks).setAlternateScreen false else t) = u at hleave ⊢
  refine .ite (fun _ => ?_) fun _ => .pure hleave
  have hrestore : Yields (pure (Handler.restoreCursorState ⟨u.toScreen, .nothing⟩))
      (Handler.Settles ⟨u.toScreen, .nothing⟩) :=
    .pure (Handler.settles_restoreCursorState _)
  exact (settles_onScreen (f := fun h => pure h.restoreCursorState) hrestore).mono
    fun _ hs => hleave.trans hs

theorem settles_setSynchronizedOutput (t : Terminal) (enable : Bool) :
    Settles t (t.setSynchronizedOutput enable) := by
  cases enable with
  | false => exact settles_same rfl
  | true =>
    have hmark : Settles t { t.markAllDirty with syncArmed := true } := settles_same rfl
    exact hold_cases (fun _ => settles_same rfl)
      (fun _ => (hmark.trans (settles_freezeWholePresentation _)).trans (settles_same rfl))
      fun _ => hmark.trans (settles_same rfl)

theorem settles_setPrivateMode (enable : Bool) (t : Terminal) (mode : Nat) :
    Yields (t.setPrivateMode enable mode) (Settles t) := by
  unfold setPrivateMode
  split
  · exact .pure (.refl t)
  · exact .ite (fun _ => t.settles_enableAlternate _) fun _ => t.settles_disableAlternate _
  · exact .pure (t.settles_setSynchronizedOutput enable)
  · exact settles_onScreen (.pure (Handler.settles_setMode _ _ _))

/-- The terminal a control sequence acts on. -/
def atSequence (t : Terminal) (action : Char) (intermediates : List UInt8) : Terminal :=
  if continuesTheCluster action intermediates then t else { t with activeGraphemeCell := none }

/-- Every control sequence but the repeat. -/
theorem settles_csiDispatch [Crates] (t : Terminal) {params : Params} {intermediates : List UInt8}
    {ignore : Bool} {action : Char}
    (hrepeat : ignore = true ∨ Csi.decode action intermediates ≠ some .repeatChar) :
    Yields (t.csiDispatch params intermediates ignore action) (Settles t) := by
  have hcluster : Settles t (t.atSequence action intermediates) := by
    unfold atSequence
    split
    · exact .refl t
    · exact settles_same rfl
  unfold atSequence at hcluster
  unfold csiDispatch
  dsimp only
  generalize (if continuesTheCluster action intermediates = true then t
    else { t with activeGraphemeCell := none }) = u at hcluster ⊢
  refine .ite (fun _ => .pure hcluster) fun hacts => ?_
  split
  · exact .pure hcluster
  · refine .each (Settles t) hcluster fun mode _ v hv => ?_
    exact (settles_setPrivateMode _ v mode).mono fun _ hs => hv.trans hs
  · next op _ hop =>
    have hne : op ≠ .repeatChar := by
      rintro rfl
      exact hrepeat.elim hacts fun hne => hne hop
    exact (settles_onScreen (Handler.settles_csi _ params hne)).mono fun _ hs => hcluster.trans hs

/-- A full reset starts the cursor over. -/
theorem follows_fullReset (t : Terminal) : Yields t.fullReset (Follows t) := by
  have hleave : Settles t (if t.releaseSyncPresentation.modes.alternateScreen then
      t.releaseSyncPresentation.swapLeave false else t.releaseSyncPresentation) := by
    have hrelease : Settles t t.releaseSyncPresentation := settles_same rfl
    split
    · exact hrelease.trans (settles_swapLeave _ false)
    · exact hrelease
  unfold fullReset
  refine .after fun grid => .pure ?_
  exact hleave.toFollows.trans ⟨rfl, fun n ht => ⟨Cursor.edge_new n, ht.2⟩⟩

theorem follows_escDispatch (t : Terminal) (intermediates : List UInt8) (ignore : Bool)
    (byte : UInt8) : Yields (t.escDispatch intermediates ignore byte) (Follows t) := by
  have hclear : Follows t { t with activeGraphemeCell := none } := ⟨rfl, fun _ ht => ht⟩
  unfold escDispatch
  refine .ite (fun _ => .pure hclear) fun _ => ?_
  split
  · exact .pure hclear
  · exact (follows_fullReset _).mono fun _ hs => hclear.trans hs
  · exact (settles_onScreen (Handler.settles_esc _ _)).mono fun _ hs => hclear.trans hs.toFollows

section

variable (t)

theorem settles_setStore (store : ImageStore) : Settles t (t.setStore store) :=
  settles_same rfl

theorem settles_refuse : Settles t t.refuse := settles_same rfl

theorem settles_abortTransfer : Settles t t.abortTransfer := settles_same rfl

theorem settles_respond (responses : List String) : Settles t { t with responses } :=
  settles_same rfl

/-- Placements are no text. -/
theorem settles_unplace (gone : Handler → Placement → Bool) :
    Yields (t.onScreen fun h => pure (h.setGrid (h.grid.unplaceWhere (gone h)).1)) (Settles t) :=
  settles_onScreen (f := fun h => pure (h.setGrid (h.grid.unplaceWhere (gone h)).1))
    (.pure ⟨rfl, .refl _⟩)

theorem settles_releaseOverfull : Settles t t.releaseOverfull := by
  unfold releaseOverfull
  split
  · exact settles_same rfl
  · exact .refl t

/-- The bookkeeping at the end of a batch. -/
theorem settles_endOfBatch (before : Terminal) (len now : Nat) :
    Settles t ((recordBatch before t).stampSync len now) := by
  rw [recordBatch_eq]
  unfold stampSync
  split
  · exact settles_same rfl
  · exact settles_same rfl

theorem settles_releaseExpiredSync (now : Nat) : Settles t (t.releaseExpiredSync now).1 := by
  unfold releaseExpiredSync
  split
  · cases t.syncReleaseRevealsClassA with
    | true | false => exact settles_same rfl
  · exact .refl t

theorem settles_takeDirtyRegions : Settles t t.takeDirtyRegions.1 := by
  unfold takeDirtyRegions
  split
  · exact settles_same rfl
  · exact settles_same rfl

/-- A direct switch ends the cluster. -/
theorem settles_detached :
    Settles t { t.freezeWholePresentation with activeGraphemeCell := none } :=
  t.settles_freezeWholePresentation.trans (settles_same rfl)

theorem settles_enterAlternateScreen : Settles t t.enterAlternateScreen := by
  unfold enterAlternateScreen
  dsimp only
  split
  · exact t.settles_detached
  · exact (t.settles_detached.trans (settles_swapEnter _ true)).trans (settles_same rfl)

theorem settles_leaveAlternateScreen : Settles t t.leaveAlternateScreen := by
  unfold leaveAlternateScreen
  dsimp only
  split
  · exact (t.settles_detached.trans (settles_swapLeave _ true)).trans (settles_same rfl)
  · exact t.settles_detached

theorem settles_deleteImages (cmd : Command) : Yields (t.deleteImages cmd) (Settles t) := by
  unfold deleteImages
  split
  · exact .pure t.settles_refuse
  · refine (t.settles_unplace fun _ => _).bind fun u hu => ?_
    refine .ite (fun _ => .after fun store => .pure ?_) fun _ => .pure hu
    exact hu.trans (u.settles_setStore store)

theorem settles_openTransfer (cmd : Command) : Yields (t.openTransfer cmd) (Settles t) := by
  have hopen : Settles t { t with
      graphics := { t.graphics with transferOnAlt := t.modes.alternateScreen } } :=
    settles_same rfl
  unfold openTransfer
  refine .ite (fun _ => .pure (.refl t)) fun _ => ?_
  refine .ite (fun _ => .pure hopen) fun _ => .after fun store => ?_
  exact (settles_unplace _ fun _ p => p.imageId == cmd.imageId &&
    ((0 : Nat) == 0 || p.placementId == 0)).mono
    fun _ hs => (hopen.trans (settles_setStore _ store)).trans hs

end

end Terminal

end Shux.Vt
