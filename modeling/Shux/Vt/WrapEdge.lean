/-
# A pending wrap stands in the last column

The flag is set when a character fills its line, with the cursor in the last column. Every
sequence that moves the cursor drops it, and so does a resize. A picture placed at the cursor
moves the cursor too, and does not: when the wrap is pending the picture always reaches the
edge, so the cursor goes to the first column with the flag still set. In a run without such a
picture a pending wrap stands in the last column throughout.
-/

import Shux.Vt.Settles

namespace Shux.Vt

open Checked

namespace Handler

variable {h h' : Handler}

/-- The edge of the grid an operation leaves. -/
def EdgeKept (h h' : Handler) : Prop :=
  1 ≤ h'.grid.cols → h.cursor.Edge h'.grid.cols → h'.cursor.Edge h'.grid.cols

theorem EdgeKept.of_settles (hs : h.cursor.Settles h'.cursor) : EdgeKept h h' :=
  fun _ hedge => hs _ hedge

/-- The character that fills the line sets the flag. -/
theorem edgeKept_advanceCursor (h : Handler) {width : Nat} (hwidth : 1 ≤ width) :
    EdgeKept h (h.advanceCursor width) := by
  unfold EdgeKept advanceCursor
  split
  · intro hcols hedge
    refine ⟨fun _ => ?_, hedge.saved⟩
    show h.grid.cols - 1 + 1 = h.grid.cols
    exact Nat.sub_add_cancel hcols
  · next hroom =>
    intro _ hedge
    refine ⟨fun hpending => ?_, hedge.saved⟩
    have hlast : h.cursor.col + 1 = h.grid.cols := hedge.live hpending
    omega

theorem edgeKept_putGlyph (h : Handler) (ch : Char) {width : Nat} (hwidth : 1 ≤ width) :
    Yields (h.putGlyph ch width) (EdgeKept h) := by
  have hinsert : Yields (if h.modes.insertMode then
      h.onGrid fun g => g.insertChars h.cursor.row h.cursor.col width
      else pure h) fun h₁ => h₁.cursor = h.cursor :=
    .ite (fun _ => .after fun _ => .pure rfl) fun _ => .pure rfl
  refine hinsert.bind fun h₁ h₁c => ?_
  have hwrite : ∀ f, Yields (h₁.onGrid f) fun h₂ => h₂.cursor = h.cursor :=
    fun _ => .after fun _ => .pure h₁c
  refine (hwrite _).bind fun h₂ h₂c => .pure ?_
  have hadvance := (h₂.setActiveGraphemeCell h₂.cursor.row h₂.cursor.col).edgeKept_advanceCursor
    hwidth
  unfold EdgeKept at hadvance ⊢
  rw [← h₂c]
  exact hadvance

theorem cursor_extendRememberedGraphic (h : Handler) (grid : Grid) (joined : Bool)
    (position : Nat × Nat) (ch : Char) :
    (if joined then extendRememberedGraphic (h.setGrid grid) position ch
      else h.setGrid grid).cursor = h.cursor := by
  split
  · unfold extendRememberedGraphic
    split
    · rfl
    · rfl
  · rfl

theorem cursor_appendZeroWidthScalar (h : Handler) (ch : Char) :
    Yields (h.appendZeroWidthScalar ch) fun h' => h'.cursor = h.cursor := by
  refine .after fun position => ?_
  cases position with
  | none => exact .pure rfl
  | some position =>
    obtain ⟨row, col⟩ := position
    refine .ite (fun _ => .pure rfl) fun _ =>
      .after fun line => .ite (fun _ => ?_) fun _ => .pure rfl
    exact .after fun out => .pure (h.cursor_extendRememberedGraphic out.1 out.2 (row, col) ch)

theorem cursor_joinAt (h : Handler) (row col width : Nat) (ch : Char) :
    Yields (h.joinAt row col width ch) fun out => out.1.cursor = h.cursor := by
  exact .after fun out => .pure (h.cursor_extendRememberedGraphic out.1 out.2 (row, col) ch)

/-- A scalar that joined keeps the edge, and one that did not leaves the cursor alone. -/
def JoinedEdge (h : Handler) (out : Handler × Bool) : Prop :=
  EdgeKept h out.1 ∧ (out.2 = false → out.1.cursor = h.cursor)

theorem joinedEdge_same {out : Handler × Bool} (hcursor : out.1.cursor = h.cursor) :
    JoinedEdge h out := by
  refine ⟨fun _ hedge => ?_, fun _ => hcursor⟩
  rw [hcursor]
  exact hedge

/-- A scalar offered to a cell, and the cursor once it has gone on from one that was taken. -/
theorem joinedEdge_joinAt {row col width : Nat} {ch : Char} {move : Handler × Bool → Handler}
    (hmove : ∀ out, 1 ≤ (move out).grid.cols → out.1.cursor.Edge (move out).grid.cols →
      (move out).cursor.Edge (move out).grid.cols) :
    Yields (do
      let out ← h.joinAt row col width ch
      if !out.2 then pure (out.1, false) else pure (move out, true)) (JoinedEdge h) := by
  refine (h.cursor_joinAt row col width ch).bind fun out hcursor => ?_
  refine .ite (fun _ => .pure (joinedEdge_same hcursor)) fun _ => .pure ⟨?_, (by rintro ⟨⟩)⟩
  intro hcols hedge
  exact hmove out hcols (hcursor.symm ▸ hedge)

theorem joinedEdge_tryAppendToActiveGrapheme (h : Handler) (ch : Char) (width : Nat) :
    Yields (h.tryAppendToActiveGrapheme ch width) (JoinedEdge h) := by
  refine .after fun position => ?_
  cases position with
  | none => exact .pure (joinedEdge_same rfl)
  | some position =>
    obtain ⟨row, col⟩ := position
    refine .after fun line => ?_
    refine .ite (fun _ => .pure (joinedEdge_same rfl)) fun _ => ?_
    refine .ite (fun _ => .pure (joinedEdge_same rfl)) fun _ => ?_
    refine joinedEdge_joinAt fun ⟨h₁, appended⟩ hcols hedge => ?_
    replace hcols : 1 ≤ h₁.grid.cols := hcols
    generalize joinedWidth (line.get col) width = target
    show Cursor.Edge h₁.grid.cols (if h₁.grid.cols ≤ col + target then
        { h₁.cursor with col := h₁.grid.cols - 1, autoWrapPending := true }
      else { h₁.cursor with col := max h₁.cursor.col (col + target) })
    split
    · exact ⟨fun _ => Nat.sub_add_cancel hcols, hedge.saved⟩
    · next hroom =>
      refine ⟨fun hpending => ?_, hedge.saved⟩
      have hlast : h₁.cursor.col + 1 = h₁.grid.cols := hedge.live hpending
      show max h₁.cursor.col (col + target) + 1 = h₁.grid.cols
      omega

theorem joinedEdge_tryAppendRegionalIndicatorPair (h : Handler) (ch : Char) :
    Yields (h.tryAppendRegionalIndicatorPair ch) (JoinedEdge h) := by
  refine .ite (fun _ => .pure (joinedEdge_same rfl)) fun _ => .after fun position => ?_
  cases position with
  | none => exact .pure (joinedEdge_same rfl)
  | some position =>
    obtain ⟨row, col⟩ := position
    refine .after fun line => ?_
    refine .ite (fun _ => .pure (joinedEdge_same rfl)) fun _ => ?_
    refine .ite (fun _ => .pure (joinedEdge_same rfl)) fun _ => ?_
    refine joinedEdge_joinAt fun ⟨h₁, appended⟩ hcols hedge => ?_
    replace hcols : 1 ≤ h₁.grid.cols := hcols
    refine ⟨fun hpending => ?_, hedge.saved⟩
    have hfull : h₁.grid.cols ≤ col + 2 := of_decide_eq_true hpending
    show min (col + 2) (h₁.grid.cols - 1) + 1 = h₁.grid.cols
    omega

end Handler

namespace Screen.Ok

open Handler

variable {h : Handler}

theorem edgeKept_startGlyph (hs : h.toScreen.Ok) (ch : Char) {width : Nat} (hwidth : 1 ≤ width) :
    Yields (h.startGlyph ch width) (EdgeKept h) := by
  have hresolve : Yields h.resolvePendingWrap fun h₁ =>
      h₁.toScreen.Ok ∧ h.cursor.Settles h₁.cursor :=
    fun h₁ heq => ⟨(hs.resolvePendingWrap.yields h₁ heq).ok,
      (h.settles_resolvePendingWrap h₁ heq).cursor⟩
  refine hresolve.bind fun h₁ ⟨hs₁, hc₁⟩ => ?_
  rw [hs₁.pullCursorIn_eq]
  have hblank : Yields h₁.blankUnderCursor fun h₂ => h.cursor.Settles h₂.cursor :=
    (h₁.settles_onGrid _).mono fun _ hsettles => hc₁.trans hsettles.cursor
  have hend : ∀ h₂ : Handler, h.cursor.Settles h₂.cursor → EdgeKept h h₂.endGlyph :=
    fun h₂ hc₂ => .of_settles (hc₂.trans h₂.settles_endGlyph.cursor)
  have hput : ∀ h₂ : Handler, h.cursor.Settles h₂.cursor →
      Yields (h₂.putGlyph ch width) (EdgeKept h) :=
    fun h₂ hc₂ => (h₂.edgeKept_putGlyph ch hwidth).mono
      fun _ hkept hcols hedge => hkept hcols (hc₂ _ hedge)
  refine .ite (fun _ => ?_) fun _ => .ite (fun _ => ?_) fun _ => hput h₁ hc₁
  · exact hblank.bind fun h₂ hc₂ => .pure (hend h₂ hc₂)
  · refine hblank.bind fun h₂ hc₂ => .ite (fun _ => ?_) fun _ => .pure (hend h₂ hc₂)
    refine h₂.settles_wrapToNextLine.bind fun h₃ hwrap => ?_
    exact hput h₃ (hc₂.trans hwrap.cursor)

variable [Crates]

theorem edgeKept_writeChar (hs : h.toScreen.Ok) (ch : Char) :
    Yields (h.writeChar ch) (EdgeKept h) := by
  unfold Handler.writeChar
  split
  · exact .pure fun _ hedge => hedge
  next width _ =>
  refine .ite (fun _ => ?_) fun hpos => ?_
  · refine (h.cursor_appendZeroWidthScalar ch).mono fun h' hcursor => .of_settles ?_
    rw [hcursor]
    exact .refl _
  have hwidth : min width 2 = 1 ∨ min width 2 = 2 := by omega
  have hactive : Yields (h.tryAppendToActiveGrapheme ch (min width 2)) fun out =>
      out.1.toScreen.Ok ∧ JoinedEdge h out :=
    fun out heq => ⟨((hs.tryAppendToActiveGrapheme ch hwidth).yields out heq).ok,
      h.joinedEdge_tryAppendToActiveGrapheme ch _ out heq⟩
  refine hactive.bind fun ⟨h₁, joined⟩ ⟨hs₁, hkept₁, hsame₁⟩ => ?_
  replace hs₁ : h₁.toScreen.Ok := hs₁
  refine .ite (fun _ => .pure hkept₁) fun hnot => ?_
  replace hsame₁ : h₁.cursor = h.cursor := hsame₁ (Bool.not_eq_true _ ▸ hnot)
  have hpair : Yields (h₁.tryAppendRegionalIndicatorPair ch) fun out =>
      out.1.toScreen.Ok ∧ JoinedEdge h₁ out :=
    fun out heq => ⟨((hs₁.tryAppendRegionalIndicatorPair ch).yields out heq).ok,
      h₁.joinedEdge_tryAppendRegionalIndicatorPair ch out heq⟩
  refine hpair.bind fun ⟨h₂, joined'⟩ ⟨hs₂, hkept₂, hsame₂⟩ => ?_
  replace hs₂ : h₂.toScreen.Ok := hs₂
  refine .ite (fun _ => .pure ?_) fun hnot' => ?_
  · unfold EdgeKept at hkept₂ ⊢
    rw [← hsame₁]
    exact hkept₂
  · replace hsame₂ : h₂.cursor = h₁.cursor := hsame₂ (Bool.not_eq_true _ ▸ hnot')
    have hremember := (hs₂.rememberGraphicScalar ch).ok
    refine (hremember.edgeKept_startGlyph ch (by omega)).mono fun h' hkept => ?_
    unfold EdgeKept at hkept ⊢
    rw [← hsame₁, ← hsame₂]
    exact hkept

omit [Crates] in
/-- A screen whose pending wraps stand at the edge, and one that follows it. -/
theorem runs_edge {x : Checked Handler} (hx : Runs x (Answers h)) (hkept : Yields x (EdgeKept h))
    (hedge : h.cursor.Edge h.grid.cols) :
    Runs x fun h' => Answers h h' ∧ h'.cursor.Edge h'.grid.cols := by
  refine (hkept.runs hx).mono fun h' ⟨hadv, hkept'⟩ => ⟨hadv, hkept' hadv.ok.cols ?_⟩
  rw [hadv.evolves.cols]
  exact hedge

theorem edge_repeatPrecedingChar (hs : h.toScreen.Ok) (count : Nat)
    (hedge : h.cursor.Edge h.grid.cols) :
    Runs (h.repeatPrecedingChar count) fun h' => Answers h h' ∧ h'.cursor.Edge h'.grid.cols := by
  have hsame : Runs (pure h) fun h' => Answers h h' ∧ h'.cursor.Edge h'.grid.cols :=
    .pure ⟨hs.advances_refl, hedge⟩
  refine .ite (fun _ => hsame) fun _ => ?_
  split
  · exact hsame
  · refine .each _ ⟨hs.advances_refl, hedge⟩ fun ch _ h₁ ⟨hadv, hedge₁⟩ => ?_
    have hwrite := runs_edge (hadv.ok.writeChar ch) (hadv.ok.edgeKept_writeChar ch) hedge₁
    exact hwrite.mono fun h₂ h₂' => ⟨hadv.trans h₂'.1, h₂'.2⟩

theorem edge_print (hs : h.toScreen.Ok) (ch : Char) (hedge : h.cursor.Edge h.grid.cols) :
    Runs (h.print ch) fun h' => Answers h h' ∧ h'.cursor.Edge h'.grid.cols := by
  refine runs_edge (hs.print ch) ?_ hedge
  refine .ite (fun _ => ?_) fun _ => hs.edgeKept_writeChar _
  exact (h.settles_execute _).mono fun _ hsettles => .of_settles hsettles.cursor

end Screen.Ok

namespace Screen

/-- A picture anchored at the cursor. -/
def placementOf (s : Screen) (image : StoredImage) (cmd : Command) (geometry : ImageGeometry) :
    Placement where
  image := image
  absRow := s.grid.evicted + s.grid.scrollbackLen + s.cursor.row
  col := s.cursor.col
  imageId := cmd.imageId
  placementId := cmd.placementId
  z := cmd.z
  geometry := geometry

/-- Whether a command that puts a picture at the cursor moves the cursor past it: the picture
covers a cell, the grid takes it, and the command does not keep the cursor. -/
def movesPast (s : Screen) (image : StoredImage) (cmd : Command) : Bool :=
  match ImageGeometry.resolve image.width image.height cmd (s.grid.cols, s.grid.rows) with
  | some (some geometry) =>
    decide (min geometry.cells.1 s.grid.cols ≠ 0 ∧ min geometry.cells.2 s.grid.rows ≠ 0) &&
      (s.grid.put (s.placementOf image cmd geometry)).any Prod.snd && !cmd.noCursorMove
  | _ => false

/-- Whether such a command leaves a pending wrap behind: the cursor is in the last column, and
goes to a first column that is not the last. -/
def strandsWrap (s : Screen) (image : StoredImage) (cmd : Command) : Bool :=
  s.cursor.autoWrapPending && decide (2 ≤ s.grid.cols) && s.movesPast image cmd

end Screen

namespace Screen.Ok

open Handler

variable {h : Handler}

/-- A picture leaves the cursor where it is, or moves it past its own columns. -/
structure Placed (h : Handler) (image : StoredImage) (cmd : Command) (h' : Handler) : Prop
    extends Handler.Moves h h' where
  pending : h'.cursor.autoWrapPending = h.cursor.autoWrapPending
  col : h'.cursor.col = h.cursor.col ∨
    h.toScreen.movesPast image cmd = true ∧ ∃ cols, 1 ≤ cols ∧ h'.cursor.col =
      if h.grid.cols ≤ h.cursor.col + cols then 0 else h.cursor.col + cols

theorem placed_placeImage (hs : h.toScreen.Ok) (image : StoredImage) (cmd : Command) :
    Yields (h.placeImage image cmd) fun out => Placed h image cmd out.1 := by
  have hsame (h' : Handler) (hmoves : Handler.Moves h h') (hcursor : h'.cursor = h.cursor)
      (refused : Bool) :
      Yields (pure (h', refused)) fun out : Handler × Bool => Placed h image cmd out.1 :=
    .pure ⟨hmoves, congrArg Cursor.autoWrapPending hcursor, .inl (congrArg Cursor.col hcursor)⟩
  have hstart : Handler.Moves h h := ⟨rfl, rfl⟩
  unfold Handler.placeImage
  refine Yields.bind (P := fun geometry =>
    ImageGeometry.resolve image.width image.height cmd (h.grid.cols, h.grid.rows) =
      some geometry) (fun _ heq => heq) fun geometry hgeometry => ?_
  cases geometry with
  | none => exact hsame h hstart rfl false
  | some geometry =>
    refine .ite (fun _ => hsame h hstart rfl false) fun hcells => ?_
    refine Yields.bind (P := fun out : Grid × Bool => h.grid.put
      (h.toScreen.placementOf image cmd geometry) = some out ∧ out.1.cols = h.grid.cols)
      (fun out heq => ⟨heq, ((hs.grid.put _).yields out heq).cols⟩) fun ⟨grid, placed⟩ hput => ?_
    replace hput : h.grid.put (h.toScreen.placementOf image cmd geometry) = some (grid, placed) ∧
      grid.cols = h.grid.cols := hput
    have hgrid : Handler.Moves h (h.setGrid grid) := ⟨rfl, rfl⟩
    refine .ite (fun _ => hsame _ hgrid rfl true) fun hplaced => ?_
    refine .ite (fun _ => hsame _ hgrid rfl false) fun hmove => ?_
    refine ((h.setGrid grid).pastImage_advancePastImage _ _).bind fun h₁ hp => .pure ?_
    have hcol : h₁.cursor.col =
        if grid.cols ≤ h.cursor.col + min geometry.cells.1 h.grid.cols then 0
        else h.cursor.col + min geometry.cells.1 h.grid.cols := hp.col
    rw [hput.2] at hcol
    refine ⟨⟨hp.lastGraphic, hp.saved⟩, hp.pending, .inr ⟨?_, _, ?_, hcol⟩⟩
    · have hplaced' : placed = true := by
        cases placed with
        | true => rfl
        | false => exact absurd rfl hplaced
      unfold Screen.movesPast
      rw [hgeometry]
      dsimp only
      rw [hput.1, Option.any_some, hplaced', Bool.and_true, Bool.and_eq_true, decide_eq_true_iff]
      exact ⟨by omega, by simpa using hmove⟩
    · omega

/-- The condition under which a picture keeps the edge. -/
theorem edge_placeImage (hs : h.toScreen.Ok) (image : StoredImage) (cmd : Command)
    (hedge : h.cursor.Edge h.grid.cols)
    (hspares : h.toScreen.strandsWrap image cmd = false) :
    Yields (h.placeImage image cmd) fun out => out.1.cursor.Edge h.grid.cols := by
  refine (hs.placed_placeImage image cmd).mono fun ⟨h', refused⟩ ⟨hmoves, hpending, hcol⟩ => ?_
  refine ⟨fun hlive => ?_, hmoves.saved ▸ hedge.saved⟩
  have hwas : h.cursor.autoWrapPending = true := hpending ▸ hlive
  have hlast := hedge.live hwas
  rcases hcol with hstay | ⟨hpast, cols, hcols, hto⟩
  · exact hstay ▸ hlast
  · -- the picture reaches the edge, and the first column is the last only on its own
    rw [Screen.strandsWrap, hwas, hpast, Bool.true_and, Bool.and_true,
      decide_eq_false_iff_not] at hspares
    rw [if_pos (by omega)] at hto
    rw [hto]
    omega

end Screen.Ok

namespace Terminal

variable {t t' : Terminal}

/-- A pending wrap stands in the last column, of the live cursor and of the parked one. -/
def Edged (t : Terminal) : Prop := t.Edges t.cols

theorem Follows.edged (h : Follows t t') (ht : t.Edged) : t'.Edged := by
  unfold Edged
  rw [h.cols]
  exact h.edges _ ht

theorem Settles.edged (h : Settles t t') (ht : t.Edged) : t'.Edged := h.toFollows.edged ht

/-- The commit of a handler whose pending wrap stands at the edge. -/
theorem Edged.commit (ht : t.Edged) {h' : Handler} (hedge : h'.cursor.Edge t.cols) :
    (t.commit h').Edged := by
  have hcols : (t.commit h').cols = t.cols := by rw [Terminal.commit, freeze_eq]
  unfold Edged
  rw [hcols]
  exact edges_commit hedge ht

variable [Crates]

/-- The picture a command puts at the cursor, with the screen it finds and the command that
says where it goes: a stored one, or one whose transmission it completes. -/
def picture (t : Terminal) (cmd : Command) (payload : List UInt8) :
    Checked (Option (Screen × StoredImage × Command)) :=
  let completed : Checked (Option (Screen × StoredImage × Command)) := do
    let t ← t.openTransfer cmd
    match (t.graphics.assembler.feed cmd payload).2 with
    | none => pure none
    | some (image, opening) =>
      pure (if t.graphics.transferOnAlt = t.modes.alternateScreen ∧
          opening.action = .transmitAndPlace then some (t.toScreen, image, opening) else none)
  match cmd.action with
  | .transmit => completed
  | .transmitAndPlace => completed
  | .put => pure ((t.store.get cmd.imageId).2.map fun image => (t.toScreen, image, cmd))
  | _ => pure none

/-- Whether a call moves the cursor past a picture while a wrap is pending, on a grid in which
the first column is not the last. -/
def strandsWrap (t : Terminal) : Call → Bool
  | .graphics (some cmd) payload => (t.picture cmd payload).any fun picture =>
    picture.any fun (screen, image, cmd) => screen.strandsWrap image cmd
  | _ => false

theorem strandsWrap_graphics (t : Terminal) (cmd : Command) (payload : List UInt8) :
    t.strandsWrap (.graphics (some cmd) payload) = (t.picture cmd payload).any fun picture =>
      picture.any fun (screen, image, cmd) => screen.strandsWrap image cmd :=
  rfl

section

omit [Crates]

theorem Ok.edged_placeImage (hok : t.Ok) (ht : t.Edged) (image : StoredImage) (cmd : Command)
    (hspares : t.toScreen.strandsWrap image cmd = false) :
    Yields (t.placeImage image cmd) Edged := by
  unfold Terminal.placeImage
  have hedge : t.cursor.Edge t.grid.cols := hok.cols.symm ▸ ht.1
  have hplace := Screen.Ok.edge_placeImage (h := ⟨t.toScreen, .nothing⟩) hok.screen image cmd
    hedge hspares
  refine hplace.bind fun ⟨h', refused⟩ hedge' => .pure ?_
  have hcommit : (t.commit h').Edged := ht.commit (hok.cols ▸ hedge')
  cases refused with
  | true => exact (settles_refuse _).edged hcommit
  | false => exact hcommit

theorem Ok.edged_finishTransfer (hok : t.Ok) (ht : t.Edged) (image : StoredImage) (cmd : Command)
    (hspares : t.graphics.transferOnAlt = t.modes.alternateScreen →
      cmd.action = .transmitAndPlace → t.toScreen.strandsWrap image cmd = false) :
    Yields (t.finishTransfer image cmd) Edged := by
  unfold Terminal.finishTransfer
  refine .ite (fun _ => .pure (t.settles_refuse.edged ht)) fun hsame => ?_
  rw [not_not] at hsame
  have hstored : Yields (if cmd.imageId = 0 then pure t
      else do
        let store ← t.store.insert cmd.imageId image
        pure (t.setStore store)) fun t₁ =>
      ∃ sink, t₁ = { t with graphics := sink } ∧ sink.Balanced := by
    refine .ite (fun _ => .pure ⟨t.graphics, rfl, hok.balanced⟩) fun _ => ?_
    refine Runs.yields (.bind ((hok.balanced.store _).insert cmd.imageId image) fun store hs => ?_)
    exact .pure ⟨_, rfl, hok.balanced.setStore _ hs⟩
  refine hstored.bind fun t₁ h₁ => ?_
  obtain ⟨sink, rfl, hbalanced⟩ := h₁
  refine .ite (fun haction => ?_) fun _ => .pure ht
  have hok₁ : Ok { t with graphics := sink } := preserves_ok.sink hok hbalanced
  exact hok₁.edged_placeImage ht image cmd (hspares hsame haction)

end

theorem Ok.edged_transmit (hok : t.Ok) (ht : t.Edged) {cmd : Command} {payload : List UInt8}
    (haction : cmd.action = .transmit ∨ cmd.action = .transmitAndPlace)
    (hspares : t.strandsWrap (.graphics (some cmd) payload) = false) :
    Yields (t.transmit cmd payload) Edged := by
  have hopen : Yields (t.openTransfer cmd) fun t₁ =>
      t.openTransfer cmd = some t₁ ∧ t₁.Ok ∧ t₁.Edged := by
    intro t₁ heq
    have hruns := (preserves_ok.mirrors.echoes.openTransfer ⟨rfl, hok⟩ cmd).left
    obtain ⟨_, -, -, hok₁⟩ := hruns.yields t₁ heq
    exact ⟨heq, hok₁, (t.settles_openTransfer cmd t₁ heq).edged ht⟩
  refine hopen.bind fun t₁ ⟨heq, hok₁, ht₁⟩ => ?_
  dsimp only
  generalize hfed : t₁.graphics.assembler.feed cmd payload = fed
  obtain ⟨assembler, done⟩ := fed
  cases done with
  | none => exact .pure ht₁
  | some done =>
    obtain ⟨image, opening⟩ := done
    have hok₂ : Ok { t₁ with graphics := { t₁.graphics with assembler } } :=
      preserves_ok.sink hok₁ ⟨hok₁.balanced.primary, hok₁.balanced.alt⟩
    refine hok₂.edged_finishTransfer ht₁ image opening fun hsame hplaces => ?_
    -- this is the picture the command puts at the cursor
    have hpicture : t.picture cmd payload = some (some (t₁.toScreen, image, opening)) := by
      unfold picture
      rcases haction with haction | haction
      all_goals
        rw [haction]
        dsimp only
        rw [heq, Option.bind_eq_bind, Option.bind_some, hfed]
        exact congrArg some (if_pos ⟨hsame, hplaces⟩)
    rw [strandsWrap_graphics, hpicture] at hspares
    exact hspares

theorem Ok.edged_putImage (hok : t.Ok) (ht : t.Edged) {cmd : Command} {payload : List UInt8}
    (haction : cmd.action = .put)
    (hspares : t.strandsWrap (.graphics (some cmd) payload) = false) :
    Yields (t.putImage cmd) Edged := by
  have hpicture : t.picture cmd payload =
      some ((t.store.get cmd.imageId).2.map fun image => (t.toScreen, image, cmd)) := by
    unfold picture
    rw [haction]
    rfl
  rw [strandsWrap_graphics, hpicture] at hspares
  have hok₁ : (t.setStore (t.store.get cmd.imageId).1).Ok :=
    preserves_ok.sink hok (hok.balanced.setStore _ ((hok.balanced.store _).get cmd.imageId))
  unfold Terminal.putImage
  dsimp only
  cases himage : (t.store.get cmd.imageId).2 with
  | none => exact .pure ht
  | some image =>
    rw [himage] at hspares
    exact hok₁.edged_placeImage ht image cmd hspares

theorem Ok.edged_dispatchGraphics (hok : t.Ok) (ht : t.Edged) (cmd : Option Command)
    (payload : List UInt8) (hspares : t.strandsWrap (.graphics cmd payload) = false) :
    Yields (t.dispatchGraphics cmd payload) Edged := by
  cases cmd with
  | none => exact .pure ht
  | some cmd =>
    unfold Terminal.dispatchGraphics
    dsimp only
    cases haction : cmd.action with
    | transmit => exact hok.edged_transmit ht (.inl haction) hspares
    | transmitAndPlace => exact hok.edged_transmit ht (.inr haction) hspares
    | put => exact hok.edged_putImage ht haction hspares
    | delete =>
      refine (t.settles_deleteImages cmd).bind fun t₁ h₁ => .pure ?_
      exact (h₁.trans t₁.settles_abortTransfer).edged ht
    | query =>
      apply Yields.pure
      split
      · exact ht
      · exact ht
    | animation => exact .pure ht

/-- A call that strands no pending wrap keeps them all at the edge. -/
theorem Ok.edged_call (hok : t.Ok) (ht : t.Edged) (c : Call) (hspares : t.strandsWrap c = false) :
    Yields (t.call c) Edged := by
  have hprinted : ∀ u : Terminal, u.Ok → u.Edged → ∀ f : Handler → Checked Handler,
      (Runs (f ⟨u.toScreen, .nothing⟩) fun h' => Handler.Answers ⟨u.toScreen, .nothing⟩ h' ∧
        h'.cursor.Edge h'.grid.cols) → Yields (u.onScreen f) Edged := by
    intro u hu hedged f hf
    refine hf.yields.bind fun h' ⟨hadv, hedge⟩ => .pure (hedged.commit ?_)
    rw [hadv.evolves.cols] at hedge
    exact hu.cols ▸ hedge
  have hidle : ∀ f : Handler → Handler, (∀ h, Handler.Settles h (f h)) →
      Yields (t.onScreen fun h => pure (f h)) Edged :=
    fun f hf => (settles_onScreen (f := fun h => pure (f h)) (.pure (hf _))).mono
      fun _ hs => hs.edged ht
  have hedge : t.cursor.Edge t.grid.cols := hok.cols.symm ▸ ht.1
  cases c with
  | print ch =>
    have hprint := Screen.Ok.edge_print (h := ⟨t.toScreen, .nothing⟩) hok.screen ch hedge
    exact hprinted t hok ht (fun h => h.print ch) hprint
  | execute byte =>
    refine (Handler.settles_execute ⟨t.toScreen, .nothing⟩ byte).bind fun h' hs => .pure ?_
    exact ht.commit (hs.cursor _ ht.1)
  | csi params intermediates ignore action =>
    by_cases hrepeat : ignore = true ∨ Csi.decode action intermediates ≠ some .repeatChar
    · exact (t.settles_csiDispatch hrepeat).mono fun t' hs => hs.edged ht
    · rw [not_or, not_not, Bool.not_eq_true] at hrepeat
      obtain ⟨rfl, hop⟩ := hrepeat
      show Yields (t.csiDispatch params intermediates false action) Edged
      unfold csiDispatch
      rw [hop]
      have hu : Ok (t.atSequence action intermediates) ∧
          (t.atSequence action intermediates).Edged := by
        unfold atSequence
        split
        · exact ⟨hok, ht⟩
        · exact ⟨hok.clearActive, ht⟩
      show Yields ((t.atSequence action intermediates).onScreen fun h =>
        h.repeatPrecedingChar (params.at 0 1)) Edged
      generalize t.atSequence action intermediates = u at hu ⊢
      have hrep := Screen.Ok.edge_repeatPrecedingChar (h := ⟨u.toScreen, .nothing⟩) hu.1.screen
        (params.at 0 1) (hu.1.cols.symm ▸ hu.2.1)
      exact hprinted u hu.1 hu.2 (fun h => h.repeatPrecedingChar (params.at 0 1)) hrep
  | esc intermediates ignore byte =>
    exact (t.follows_escDispatch intermediates ignore byte).mono fun _ hs => hs.edged ht
  | osc params bell => exact hidle _ fun h => h.settles_oscDispatch params bell
  | hook intermediates ignore action =>
    exact hidle _ fun h => h.settles_hook intermediates ignore action
  | put byte => exact hidle _ fun h => h.settles_putDcs byte
  | unhook => exact hidle _ Handler.settles_unhook
  | graphics cmd payload => exact hok.edged_dispatchGraphics ht cmd payload hspares
  | status reply =>
    exact hidle (fun h => (reply.map h.pushResponse).getD h) fun h => h.settles_status reply

/-- No call of a batch strands a pending wrap. -/
def SparesCalls (t : Terminal) : List Call → Prop
  | [] => True
  | c :: cs => t.strandsWrap c = false ∧ ∀ t', t.call c = some t' → SparesCalls t' cs

/-- No call of a run strands a pending wrap. -/
def Spares (t : Terminal) : List Event → Prop
  | [] => True
  | e :: es =>
    (∀ len now calls, e = .step (.process len now calls) →
      SparesCalls { t.releaseOverfull with responses := [] } calls) ∧
    ∀ t', t.event e = some t' → Spares t' es

/-- A pending wrap stands in the last column; a character printed anywhere else does not wrap
first. -/
structure WrapsAtEdge (t : Terminal) : Prop where
  pending : t.cursor.autoWrapPending = true → t.cursor.col + 1 = t.grid.cols
  unwrapped : t.cursor.col + 1 ≠ t.grid.cols →
    Handler.resolvePendingWrap ⟨t.toScreen, .nothing⟩ = some ⟨t.toScreen, .nothing⟩

omit [Crates] in
theorem Ok.wrapsAtEdge (hok : t.Ok) (ht : t.Edged) : t.WrapsAtEdge := by
  have hpending : t.cursor.autoWrapPending = true → t.cursor.col + 1 = t.grid.cols := by
    rw [hok.cols]
    exact ht.1.live
  exact ⟨hpending, fun hcol => if_neg (mt hpending hcol)⟩

theorem Ok.edged_calls (hok : t.Ok) (ht : t.Edged) (cs : List Call) (hspares : t.SparesCalls cs) :
    Runs (each cs t call) fun t' => t'.Ok ∧ t'.Edged := by
  induction cs generalizing t with
  | nil => exact .pure ⟨hok, ht⟩
  | cons c cs ih =>
    have hcall := (hok.edged_call ht c hspares.1).runs (preserves_ok.call hok c fun _ _ => trivial)
    obtain ⟨t₁, heq, hok₁, ht₁⟩ := hcall
    have hrest := ih hok₁ ht₁ (hspares.2 t₁ heq)
    unfold each at hrest ⊢
    rw [List.foldlM_cons, heq]
    exact hrest

omit [Crates] in
/-- A resize drops every pending wrap. -/
theorem edged_resize (t : Terminal) (rows cols : Nat) : Yields (t.resize rows cols) Edged := by
  rw [resize_eq]
  refine .after fun t₁ => .pure ?_
  generalize t.resizes (max rows 1) (max cols 1) = changed
  have hedged : (t₁.resizeEnd (max rows 1) (max cols 1) false).Edged := by
    refine ⟨Cursor.edge_clamp _ _ _ _, fun c hc => ?_⟩
    obtain ⟨c', -, rfl⟩ := Option.map_eq_some_iff.mp hc
    exact Cursor.edge_clamp _ _ _ _
  cases changed with
  | true => exact hedged
  | false => exact hedged

theorem Ok.edged_event (hok : t.Ok) (ht : t.Edged) (e : Event)
    (hspares : ∀ len now calls, e = .step (.process len now calls) →
      SparesCalls { t.releaseOverfull with responses := [] } calls) :
    Yields (t.event e) Edged := by
  have hstep : ∀ x : Checked Terminal, Yields x Edged → Yields (do
      let t ← x
      pure (t, ([] : List String))) fun out => out.1.Edged :=
    fun x hx => hx.bind fun _ h => .pure h
  cases e with
  | takeDirtyRegions => exact .pure (t.settles_takeDirtyRegions.edged ht)
  | clearScrollback => exact .pure ht
  | step s =>
    have hout : Yields (t.step s) fun out => out.1.Edged := by
      cases s with
      | process len now calls =>
        have hbefore : Edged { t.releaseOverfull with responses := [] } :=
          (t.settles_releaseOverfull.trans (settles_respond _ _)).edged ht
        have hcalls := hok.releaseOverfull.clearResponses.edged_calls hbefore calls
          (hspares len now calls rfl)
        refine hcalls.yields.bind fun after hafter => .pure ?_
        exact (after.settles_endOfBatch _ len now).edged hafter.2
      | resize rows cols => exact hstep _ (t.edged_resize rows cols)
      | enterAlternateScreen => exact .pure (t.settles_enterAlternateScreen.edged ht)
      | leaveAlternateScreen => exact .pure (t.settles_leaveAlternateScreen.edged ht)
      | releaseExpiredSync now => exact .pure ((t.settles_releaseExpiredSync now).edged ht)
    exact hout.bind fun _ h => .pure h

theorem Ok.edged_run (hok : t.Ok) (ht : t.Edged) (events : List Event) (hspares : t.Spares events) :
    Runs (t.run events) fun t' => t'.Ok ∧ t'.Edged := by
  induction events generalizing t with
  | nil => exact .pure ⟨hok, ht⟩
  | cons e es ih =>
    obtain ⟨t₁, heq, hok₁, ht₁⟩ := (hok.edged_event ht e hspares.1).runs (hok.event e)
    have hrest := ih hok₁ ht₁ (hspares.2 t₁ heq)
    unfold Terminal.run each at hrest ⊢
    rw [List.foldlM_cons, heq]
    exact hrest

/-- In a run in which no picture strands a pending wrap, a pending wrap always stands in the
last column. -/
theorem run_wrapsAtEdge (rows cols : Nat) (config : GridConfig) (events : List Event)
    (hspares : (withConfig rows cols config).Spares events) :
    Runs ((withConfig rows cols config).run events) WrapsAtEdge := by
  have hstart : (withConfig rows cols config).Edged := ⟨Cursor.edge_new _, fun c hc => by cases hc⟩
  refine ((ok_withConfig rows cols config).edged_run hstart events hspares).mono ?_
  exact fun t h => h.1.wrapsAtEdge h.2

end Terminal

namespace Sample

open Terminal

/-- One pixel of colour, as it is on the wire. -/
@[reducible]
def pixelCrates : Crates :=
  ⟨fun _ => some 1, fun payload => if payload = asciiBytes "AAAA" then some [0, 0, 0] else none⟩

/-- Transmit one pixel and put it at the cursor. -/
def placePixel : Call :=
  .graphics (some { Command.default with
    action := .transmitAndPlace, format := .rgb24, width := 1, height := 1 }) (asciiBytes "AAAA")

/-- A picture on a line that is not full. -/
theorem run_wrapsAtEdge_picture : Runs (@Terminal.run pixelCrates (withConfig 1 2 .default)
      [.step (.process 34 0 [.print 'a', placePixel])]) WrapsAtEdge := by
  refine @run_wrapsAtEdge pixelCrates 1 2 .default _ ⟨?_, fun _ _ => trivial⟩
  intro len now calls heq
  cases heq
  refine ⟨rfl, fun t₁ ht₁ => ⟨?_, fun _ _ => trivial⟩⟩
  have hprinted : (@Terminal.call pixelCrates
      { (withConfig 1 2 .default).releaseOverfull with responses := [] } (.print 'a')).map
        (fun t => @Terminal.strandsWrap pixelCrates t placePixel) = some false := by
    decide
  rw [ht₁] at hprinted
  exact Option.some.inj hprinted

/-- A picture after a full line: the cursor is in the first of two columns, with the wrap
still pending. -/
theorem run_wrapsAtEdge_false :
    ¬∀ events : List Event,
      Runs (@Terminal.run pixelCrates (withConfig 1 2 .default) events) WrapsAtEdge := by
  intro hall
  obtain ⟨t, hrun, hedge⟩ := hall [.step (.process 35 0 [.print 'a', .print 'b', placePixel])]
  have hstate : (@Terminal.run pixelCrates (withConfig 1 2 .default)
      [.step (.process 35 0 [.print 'a', .print 'b', placePixel])]).map
        (fun t => (t.cursor.autoWrapPending, t.cursor.col, t.grid.cols)) = some (true, 0, 2) := by
    decide
  rw [hrun, Option.map_some, Option.some.injEq, Prod.mk.injEq, Prod.mk.injEq] at hstate
  have hlast := hedge.pending hstate.1
  omega

end Sample

end Shux.Vt
