/-
# The source of a repeat

REP repeats the preceding character of the data stream. The terminal keeps its scalars in a
record of their own: a new character starts it over, and a scalar that joins the cell under
construction extends it. `Character` follows the stream beside the terminal: the last printed
character, the scalars that joined its own cell, and a note of where that cell is. The two agree
until a scalar joins one of the two cells, the one under construction and the character's own, and
not the other: a second mark at the place of a stray one, a mark after a picture has scrolled the
screen, or a stray mark on the character itself. As long as they agree the record is no longer than
the payload of a cell, and the work of one repeat is bounded.
-/

import Shux.Vt.CellText
import Shux.Vt.ScrollMany
import Shux.Vt.WrapEdge

namespace Shux.Vt

open Checked Option

/-- A way to tell where the cell of a printed character is: what is noted when the character is put
into it, what becomes of the note in a call that writes nothing and in an event without calls, and
the cell of the screen that it stands for. -/
structure Tracker (P : Type) where
  put : Screen → P
  call : Terminal → Call → P → P
  event : Terminal → Event → P → P
  cell : Screen → P → Option (Nat × Nat)

/-- The last printed character, with the note of its cell. -/
structure Character (P : Type) where
  base : Char
  joined : List Char
  place : P

/-- The last printed character, and whether a scalar has joined just one of its own cell and the
cell under construction. -/
structure Printed (P : Type) where
  last : Option (Character P)
  astray : Bool

variable {P : Type} (tracker : Tracker P)

/-- Where a scalar goes. -/
inductive Landing where
  | nowhere
  | joins (row col : Nat)
  | starts
deriving DecidableEq, Repr

namespace Character

variable (c : Character P)

def scalars : List Char := c.base :: c.joined

def record : LastGraphic := ⟨c.base, c.joined⟩

/-- Whether a cell is the character's own, and still shows it. -/
def owns (s : Screen) (row col : Nat) : Bool :=
  tracker.cell s c.place == some (row, col) && s.grid.textAt row col == some c.scalars

end Character

namespace Printed

/-- Nothing printed yet. -/
def nothing : Printed P := ⟨none, false⟩

/-- Whether a scalar joins just one of the last character's own cell and the cell under
construction. -/
def strays (p : Printed P) (s : Screen) : Landing → Bool
  | .joins row col => p.last.any fun c =>
      (s.activeGraphemeCell == some (row, col)) != c.owns tracker s row col
  | _ => false

/-- Follow one scalar from a screen to the next one. -/
def follow (p : Printed P) (s s' : Screen) (ch : Char) (landing : Landing) : Printed P where
  last := match landing with
    | .nowhere => p.last
    | .joins row col => p.last.map fun c =>
      if c.owns tracker s row col then { c with joined := c.joined ++ [ch] } else c
    | .starts => some ⟨ch, [], tracker.put s'⟩
  astray := p.astray || p.strays tracker s landing

/-- What becomes of the last character where nothing is written. A full reset ends the stream. -/
def moved (p : Printed P) (ends : Bool) (move : P → P) : Printed P :=
  ⟨if ends then none else p.last.map fun c => { c with place := move c.place }, p.astray⟩

end Printed

namespace Handler

variable [Crates]

/-- Where a scalar goes: to a cell whose payload has room for it, or to a cell of its own. -/
def landing (h : Handler) (ch : Char) : Checked Landing :=
  match Crates.width ch with
  | none => pure .nowhere
  | some width => do
    let width := min width 2
    if width = 0 then
      let position ← h.joinPosition
      match position with
      | none => pure .nowhere
      | some (row, col) =>
        if h.grid.rows ≤ row ∨ h.grid.cols ≤ col then pure .nowhere
        else do
          let line ← h.grid.visibleRow row
          pure (if (line.get col).any fun cell =>
              cell.isGlyph && (cell.appendGraphemeScalar ch).isSome
            then .joins row col else .nowhere)
    else
      let (h₁, joined) ← h.tryAppendToActiveGrapheme ch width
      let joined ← (if joined then pure true
        else do
          let (_, joined) ← h₁.tryAppendRegionalIndicatorPair ch
          pure joined)
      pure (match h.activeGraphemeCell with
        | some (row, col) => if joined then .joins row col else .starts
        | none => .starts)

/-- Write a scalar, and follow it. -/
def traceChar (s : Handler × Printed P) (ch : Char) : Checked (Handler × Printed P) := do
  let landing ← s.1.landing ch
  let h ← s.1.writeChar ch
  pure (h, s.2.follow tracker s.1.toScreen h.toScreen ch landing)

omit [Crates] in
/-- The scalars a repeat writes. -/
def repeated (h : Handler) (count : Nat) : List Char :=
  match h.lastGraphic with
  | none => []
  | some source =>
    if count = 0 then []
    else (List.replicate (h.repeatIterations count source) source.scalars).flatten

theorem repeatPrecedingChar_eq (h : Handler) (count : Nat) :
    h.repeatPrecedingChar count = each (h.repeated count) h writeChar := by
  unfold repeatPrecedingChar repeated
  cases h.lastGraphic with
  | none => exact ite_self _
  | some source =>
    dsimp only
    by_cases hcount : count = 0
    · rw [if_pos hcount, if_pos hcount]
      rfl
    · rw [if_neg hcount, if_neg hcount]

end Handler

namespace Handler

variable {h h' : Handler} {row col : Nat} {ch : Char}
variable {landing : Landing}

/-- Nothing was written: the record and the visible text are as they were. -/
structure Rests (h h' : Handler) : Prop where
  record : h'.lastGraphic = h.lastGraphic
  text : ∀ row col, h'.grid.textAt row col = h.grid.textAt row col

theorem Rests.refl (h : Handler) : Rests h h := ⟨rfl, fun _ _ => rfl⟩

/-- A scalar joined the character of a cell. -/
structure Takes (h : Handler) (row col : Nat) (ch : Char) (h' : Handler) : Prop where
  record : h'.lastGraphic =
    if h.activeGraphemeCell = some (row, col) then
      h.lastGraphic.map fun record => { record with rest := record.rest ++ [ch] }
    else h.lastGraphic
  text : ∃ text, h.grid.textAt row col = some text ∧ text.length < maxGraphemeScalars

/-- What became of a scalar that was offered to the character of a cell. -/
structure Offers (h : Handler) (row col : Nat) (ch : Char) (out : Handler × Bool) : Prop where
  grid : Grid.Offered h.grid row col (out.1.grid, out.2)
  active : out.1.activeGraphemeCell = h.activeGraphemeCell
  record : out.1.lastGraphic =
    if out.2 = true ∧ h.activeGraphemeCell = some (row, col) then
      h.lastGraphic.map fun record => { record with rest := record.rest ++ [ch] }
    else h.lastGraphic

/-- The record is extended when the scalar was taken by the cell under construction. -/
theorem offers_extend {g : Grid} {taken : Bool} (hgrid : Grid.Offered h.grid row col (g, taken)) :
    Offers h row col ch (if taken then (h.setGrid g).extendRememberedGraphic (row, col) ch
      else h.setGrid g, taken) := by
  cases taken with
  | false => exact ⟨hgrid, rfl, rfl⟩
  | true =>
    by_cases hactive : h.activeGraphemeCell = some (row, col)
    · have hextend : (h.setGrid g).extendRememberedGraphic (row, col) ch =
          { h.setGrid g with lastGraphic := h.lastGraphic.map fun record =>
            { record with rest := record.rest ++ [ch] } } :=
        if_neg (not_not.mpr hactive)
      rw [if_pos rfl, hextend]
      exact ⟨hgrid, rfl, (if_pos ⟨rfl, hactive⟩).symm⟩
    · have hkeep : (h.setGrid g).extendRememberedGraphic (row, col) ch = h.setGrid g :=
        if_pos hactive
      rw [if_pos rfl, hkeep]
      exact ⟨hgrid, rfl, (if_neg fun hboth => hactive hboth.2).symm⟩

theorem yields_joinAt (h : Handler) (row col width : Nat) (ch : Char) :
    Yields (h.joinAt row col width ch) (Offers h row col ch) :=
  (h.grid.yields_offer row col fun old => old.yields_joinScalar col width _ ch).bind
    fun _ hgrid => .pure (offers_extend hgrid)

theorem Offers.rests {out : Handler × Bool} (ho : Offers h row col ch out)
    (hrefused : out.2 = false) :
    Rests h out.1 where
  record := by
    rw [ho.record, if_neg]
    rw [hrefused]
    exact fun hboth => Bool.false_ne_true hboth.1
  text := ho.grid.refused hrefused

/-- A scalar that was taken, and the handler once the cursor has gone on. -/
theorem Offers.takes {out : Handler × Bool} (ho : Offers h row col ch out) (htaken : out.2 = true)
    (hrecord : h'.lastGraphic = out.1.lastGraphic) : Takes h row col ch h' where
  record := by
    rw [hrecord, ho.record]
    simp only [htaken, true_and]
  text := ho.grid.taken htaken

/-- An attempt to join the cell under construction. -/
def Attempts (h : Handler) (ch : Char) (out : Handler × Bool) : Prop :=
  (out.2 = false → Rests h out.1 ∧ out.1.activeGraphemeCell = h.activeGraphemeCell) ∧
  (out.2 = true → ∃ row col, h.activeGraphemeCell = some (row, col) ∧ Takes h row col ch out.1)

theorem attempts_refl (h : Handler) (ch : Char) : Attempts h ch (h, false) :=
  ⟨fun _ => ⟨.refl h, rfl⟩, (by rintro ⟨⟩)⟩

/-- The position of the cell under construction. -/
theorem yields_activeGraphemePosition (h : Handler) :
    Yields h.activeGraphemePosition fun position => ∀ row col, position = some (row, col) →
      h.activeGraphemeCell = some (row, col) := by
  unfold activeGraphemePosition
  split
  · exact .pure fun _ _ heq => by cases heq
  · next row col hactive =>
    refine .after fun line => .pure fun row' col' heq => ?_
    split at heq
    · cases heq
      exact hactive
    · cases heq

/-- A scalar offered to the cell under construction, and the handler once the cursor has gone on
from one that was taken. -/
theorem attempts_joinAt {row col : Nat} (hactive : h.activeGraphemeCell = some (row, col))
    (width : Nat) (ch : Char) {move : Handler × Bool → Handler}
    (hmove : ∀ out, (move out).lastGraphic = out.1.lastGraphic) :
    Yields (do
      let out ← h.joinAt row col width ch
      if !out.2 then pure (out.1, false) else pure (move out, true)) (Attempts h ch) := by
  refine (h.yields_joinAt row col width ch).bind fun out ho => ?_
  refine .ite (fun hrefused => .pure ⟨fun _ => ⟨ho.rests ?_, ho.active⟩, (by rintro ⟨⟩)⟩)
    fun htaken => .pure ⟨(by rintro ⟨⟩), fun _ => ⟨row, col, hactive, ho.takes ?_ (hmove out)⟩⟩
  · simpa using hrefused
  · simpa using htaken

theorem attempts_tryAppendToActiveGrapheme (h : Handler) (ch : Char) (width : Nat) :
    Yields (h.tryAppendToActiveGrapheme ch width) (Attempts h ch) := by
  refine h.yields_activeGraphemePosition.bind fun position hposition => ?_
  cases position with
  | none => exact .pure (h.attempts_refl ch)
  | some position =>
    obtain ⟨row, col⟩ := position
    refine .after fun line => ?_
    refine .ite (fun _ => .pure (h.attempts_refl ch)) fun _ => ?_
    refine .ite (fun _ => .pure (h.attempts_refl ch)) fun _ => ?_
    exact attempts_joinAt (hposition row col rfl) _ ch fun _ => rfl

theorem attempts_tryAppendRegionalIndicatorPair (h : Handler) (ch : Char) :
    Yields (h.tryAppendRegionalIndicatorPair ch) (Attempts h ch) := by
  refine .ite (fun _ => .pure (h.attempts_refl ch)) fun _ => ?_
  refine h.yields_activeGraphemePosition.bind fun position hposition => ?_
  cases position with
  | none => exact .pure (h.attempts_refl ch)
  | some position =>
    obtain ⟨row, col⟩ := position
    refine .after fun line => ?_
    refine .ite (fun _ => .pure (h.attempts_refl ch)) fun _ => ?_
    refine .ite (fun _ => .pure (h.attempts_refl ch)) fun _ => ?_
    exact attempts_joinAt (hposition row col rfl) 2 ch fun _ => rfl

theorem record_putGlyph (h : Handler) (ch : Char) (width : Nat) :
    Yields (h.putGlyph ch width) fun h' => h'.lastGraphic = h.lastGraphic := by
  have hinsert : Yields (if h.modes.insertMode then
      h.onGrid fun g => g.insertChars h.cursor.row h.cursor.col width
      else pure h) fun h₁ => h₁.lastGraphic = h.lastGraphic :=
    .ite (fun _ => .after fun _ => .pure rfl) fun _ => .pure rfl
  refine hinsert.bind fun h₁ hlast₁ => (h₁.settles_onGrid _).bind fun h₂ hs => .pure ?_
  have hlast₂ := hs.lastGraphic.trans hlast₁
  unfold advanceCursor
  split
  · exact hlast₂
  · exact hlast₂

theorem record_startGlyph (h : Handler) (ch : Char) (width : Nat) :
    Yields (h.startGlyph ch width) fun h' => h'.lastGraphic = h.lastGraphic := by
  refine h.settles_resolvePendingWrap.bind fun h₀ hs => ?_
  have hpull : h₀.pullCursorIn.lastGraphic = h.lastGraphic := by
    unfold pullCursorIn
    dsimp only
    split_ifs
    all_goals exact hs.lastGraphic
  generalize h₀.pullCursorIn = h₁ at hpull
  have hput : ∀ h₂ : Handler, h₂.lastGraphic = h.lastGraphic →
      Yields (h₂.putGlyph ch width) fun h' =>
      h'.lastGraphic = h.lastGraphic :=
    fun h₂ hlast₂ => (h₂.record_putGlyph ch width).mono fun _ hlast => hlast.trans hlast₂
  have hblank : Yields h₁.blankUnderCursor fun h₂ => h₂.lastGraphic = h.lastGraphic :=
    (h₁.settles_onGrid _).mono fun h₂ hs => hs.lastGraphic.trans hpull
  -- a wide character that finds no room ends the cluster
  refine .ite (fun _ => ?_) fun _ => .ite (fun _ => ?_) fun _ => hput h₁ hpull
  · exact hblank.bind fun h₂ hlast₂ => .pure hlast₂
  · refine hblank.bind fun h₂ hlast₂ => .ite (fun _ => ?_) fun _ => .pure hlast₂
    exact h₂.settles_wrapToNextLine.bind fun h₃ hs => hput h₃ (hs.lastGraphic.trans hlast₂)

/-- What a scalar does, by where it goes. -/
def Writes (h : Handler) (ch : Char) (h' : Handler) : Landing → Prop
  | .nowhere => Rests h h'
  | .joins row col => Takes h row col ch h'
  | .starts => h'.lastGraphic = some ⟨ch, []⟩

/-- A row takes a scalar when it has a cell there with room for it. -/
theorem taken_appendScalar (row : Row) (col : Nat) (ch : Char) :
    (row.appendScalar col ch).2 = (row.get col).any fun cell =>
      (cell.appendGraphemeScalar ch).isSome := by
  unfold Row.appendScalar Row.get
  cases row.cells[col]? with
  | none => rfl
  | some cell =>
    rw [bind_some, any_some]
    cases cell.appendGraphemeScalar ch with
    | none => rfl
    | some joined => rfl

variable [Crates]

theorem writes_appendZeroWidthScalar (h : Handler) (ch : Char) {width : Nat}
    (hwidth : Crates.width ch = some width) (hzero : min width 2 = 0)
    (hlanding : h.landing ch = some landing) :
    Yields (h.appendZeroWidthScalar ch) fun h' => Writes h ch h' landing := by
  unfold Handler.landing at hlanding
  rw [hwidth] at hlanding
  dsimp only at hlanding
  rw [if_pos hzero] at hlanding
  obtain ⟨position, hposition, hrest⟩ := Option.bind_eq_some_iff.mp hlanding
  unfold appendZeroWidthScalar
  rw [hposition]
  show Yields (match position with
    | none => pure h
    | some (row, col) => _) _
  cases position with
  | none =>
    cases hrest
    exact .pure (.refl h)
  | some position =>
    obtain ⟨row, col⟩ := position
    dsimp only at hrest ⊢
    by_cases hout : h.grid.rows ≤ row ∨ h.grid.cols ≤ col
    · rw [if_pos hout] at hrest ⊢
      cases hrest
      exact .pure (.refl h)
    rw [if_neg hout] at hrest ⊢
    obtain ⟨line, hline, hgoes⟩ := Option.bind_eq_some_iff.mp hrest
    rw [hline]
    show Yields (if (line.get col).any Cell.isGlyph then _ else pure h) _
    by_cases hglyph : (line.get col).any Cell.isGlyph = true
    · rw [if_pos hglyph]
      have hoffer : Yields (h.grid.editRowMarked row fun line => pure (line.appendScalar col ch))
          fun out => Grid.Offered h.grid row col out ∧
            out.2 = (line.get col).any fun cell => (cell.appendGraphemeScalar ch).isSome := by
        intro out heq
        refine ⟨h.grid.yields_offer row col
          (fun old => .pure (old.offered_appendScalar col ch)) out heq, ?_⟩
        obtain ⟨old, new, hold, hf, -⟩ := h.grid.yields_editRowMarked row _ out heq
        cases hold.symm.trans hline
        rw [← taken_appendScalar]
        exact congrArg Prod.snd (Option.some.inj hf).symm
      refine hoffer.bind fun ⟨g, taken⟩ ⟨hgrid, htaken⟩ => .pure ?_
      have ho := @offers_extend h row col ch g taken hgrid
      cases hcell : line.get col with
      | none =>
        rw [hcell] at hglyph
        cases hglyph
      | some cell =>
        rw [hcell, any_some] at hglyph htaken hgoes
        rw [hglyph, Bool.true_and, ← show taken = _ from htaken] at hgoes
        cases taken with
        | false =>
          cases hgoes
          have hr := ho.rests rfl
          exact ⟨hr.record, hr.text⟩
        | true =>
          cases hgoes
          exact ho.takes rfl rfl
    · rw [if_neg hglyph]
      have hnowhere : landing = .nowhere := by
        have hnone : ((line.get col).any fun cell =>
            cell.isGlyph && (cell.appendGraphemeScalar ch).isSome) = false := by
          cases hcell : line.get col with
          | none => rfl
          | some cell =>
            rw [hcell, any_some, Bool.not_eq_true] at hglyph
            rw [any_some, hglyph, Bool.false_and]
        rw [hnone] at hgoes
        exact (Option.some.inj hgoes).symm
      rw [hnowhere]
      exact .pure (.refl h)

theorem writes_writeChar (h : Handler) (ch : Char) (hlanding : h.landing ch = some landing) :
    Yields (h.writeChar ch) fun h' => Writes h ch h' landing := by
  unfold writeChar
  cases hwidth : Crates.width ch with
  | none =>
    unfold Handler.landing at hlanding
    rw [hwidth] at hlanding
    cases hlanding
    exact .pure (.refl h)
  | some width =>
    refine .ite (fun hzero => h.writes_appendZeroWidthScalar ch hwidth hzero hlanding)
      fun hpos => ?_
    unfold Handler.landing at hlanding
    rw [hwidth] at hlanding
    dsimp only at hlanding
    rw [if_neg hpos] at hlanding
    obtain ⟨⟨h₁, joined⟩, happend, hrest⟩ := Option.bind_eq_some_iff.mp hlanding
    have hfirst := h.attempts_tryAppendToActiveGrapheme ch _ _ happend
    rw [happend]
    show Yields (if joined then pure h₁ else _) _
    cases joined with
    | true =>
      obtain ⟨row, col, hactive, htakes⟩ := hfirst.2 rfl
      obtain ⟨joined, hjoined, hgoes⟩ := Option.bind_eq_some_iff.mp hrest
      cases hjoined
      rw [hactive] at hgoes
      cases hgoes
      exact .pure htakes
    | false =>
      obtain ⟨hrests, hactive₁⟩ := hfirst.1 rfl
      rw [if_neg Bool.false_ne_true]
      obtain ⟨joined, hjoined, hgoes⟩ := Option.bind_eq_some_iff.mp hrest
      rw [if_neg Bool.false_ne_true] at hjoined
      obtain ⟨⟨h₂, joined'⟩, hpair, hdone⟩ := Option.bind_eq_some_iff.mp hjoined
      cases hdone
      have hsecond := h₁.attempts_tryAppendRegionalIndicatorPair ch _ hpair
      rw [hpair]
      show Yields (if joined' then pure h₂ else (h₂.rememberGraphicScalar ch).startGlyph ch _) _
      cases joined' with
      | true =>
        obtain ⟨row, col, hactive, htakes⟩ := hsecond.2 rfl
        rw [hactive₁] at hactive
        rw [if_pos rfl]
        dsimp only at hgoes
        rw [hactive] at hgoes
        cases hgoes
        refine .pure ⟨?_, ?_⟩
        · rw [htakes.record, hactive₁, hrests.record]
        · rw [← hrests.text]
          exact htakes.text
      | false =>
        have hstarts : landing = .starts := by
          cases hactive : h.activeGraphemeCell with
          | none =>
            rw [hactive] at hgoes
            exact (Option.some.inj hgoes).symm
          | some position =>
            rw [hactive] at hgoes
            exact (Option.some.inj hgoes).symm
        rw [hstarts, if_neg Bool.false_ne_true]
        exact record_startGlyph _ ch _

end Handler

/-! ## The record agrees with the stream -/

/-- The record is the last printed character, which is short enough for a cell. -/
structure Printed.Agrees (p : Printed P) (s : Screen) : Prop where
  record : s.lastGraphic = p.last.map Character.record
  count : ∀ c, p.last = some c → c.scalars.length ≤ maxGraphemeScalars

namespace Printed

variable {tracker} {p : Printed P} {s s' : Screen}

theorem agrees_nothing (h : s.lastGraphic = none) : (nothing : Printed P).Agrees s where
  record := h
  count _ hc := by cases hc

theorem Agrees.moved (h : p.Agrees s) (hrecord : s'.lastGraphic = s.lastGraphic) (move : P → P) :
    (p.moved false move).Agrees s' := by
  refine ⟨?_, fun c hc => ?_⟩
  · show s'.lastGraphic = Option.map _ (Option.map _ p.last)
    rw [hrecord, h.record, map_map]
    rfl
  · obtain ⟨c, hlast, rfl⟩ := Option.map_eq_some_iff.mp hc
    exact h.count c hlast

/-- Follow a scalar that does not go astray. -/
theorem Agrees.follow {h h' : Handler} (ha : p.Agrees h.toScreen) {ch : Char} {landing : Landing}
    (hwrites : h.Writes ch h' landing) (hstrays : p.strays tracker h.toScreen landing = false) :
    (p.follow tracker h.toScreen h'.toScreen ch landing).Agrees h'.toScreen := by
  cases landing with
  | nowhere => exact ⟨(Handler.Rests.record hwrites).trans ha.record, ha.count⟩
  | starts =>
    refine ⟨hwrites, fun c hc => ?_⟩
    cases hc
    exact (by decide : 1 ≤ maxGraphemeScalars)
  | joins row col =>
    have ht : Handler.Takes h row col ch h' := hwrites
    cases hlast : p.last with
    | none =>
      have hnone : (p.follow tracker h.toScreen h'.toScreen ch (.joins row col)).last = none := by
        show Option.map _ p.last = none
        rw [hlast]
        rfl
      refine ⟨?_, fun c hc => by cases hnone.symm.trans hc⟩
      have hgone : h.lastGraphic = none := ha.record.trans (by rw [hlast]; rfl)
      show h'.lastGraphic = _
      rw [hnone, ht.record, hgone]
      exact ite_self _
    | some c =>
      have hrecord : h.lastGraphic = some c.record := ha.record.trans (by rw [hlast]; rfl)
      have hsame :
          (h.activeGraphemeCell == some (row, col)) = c.owns tracker h.toScreen row col := by
        rw [strays, hlast, any_some, bne_eq_false_iff_eq] at hstrays
        exact hstrays
      have hnew : (p.follow tracker h.toScreen h'.toScreen ch (.joins row col)).last =
          some (if c.owns tracker h.toScreen row col then { c with joined := c.joined ++ [ch] }
            else c) := by
        show Option.map _ p.last = _
        rw [hlast]
        rfl
      refine ⟨?_, fun c' hc => ?_⟩
      · show h'.lastGraphic = Option.map Character.record _
        rw [hnew, ht.record, hrecord, ← hsame]
        by_cases hactive : h.activeGraphemeCell = some (row, col)
        · rw [if_pos hactive, if_pos (by rw [hactive, beq_self_eq_true])]
          rfl
        · rw [if_neg hactive, if_neg (by rwa [beq_iff_eq])]
          rfl
      · cases hnew.symm.trans hc
        split
        · next howns =>
          -- the cell shows the character and has room for one more
          obtain ⟨text, htext, hroom⟩ := ht.text
          have hshows := beq_iff_eq.mp (Bool.and_eq_true_iff.mp howns).2
          cases htext.symm.trans hshows
          unfold Character.scalars at hroom ⊢
          rw [List.length_cons] at hroom ⊢
          rw [List.length_append, List.length_singleton]
          exact hroom
        · exact ha.count c hlast

end Printed

namespace Screen.Ok

open Handler

variable [Crates] {h : Handler}

theorem runs_landing (hs : h.toScreen.Ok) (ch : Char) : Runs (h.landing ch) fun _ => True := by
  unfold Handler.landing
  split
  · exact .pure trivial
  next width _ =>
  refine .ite (fun _ => ?_) fun hpos => ?_
  · refine hs.joinPosition.bind fun position hposition => ?_
    cases position with
    | none => exact .pure trivial
    | some position =>
      obtain ⟨row, col⟩ := position
      refine .ite (fun _ => .pure trivial) fun _ => ?_
      exact (hs.visibleRow (hposition row col rfl)).bind fun _ _ => .pure trivial
  · have hwidth : min width 2 = 1 ∨ min width 2 = 2 := by omega
    refine (hs.tryAppendToActiveGrapheme ch hwidth).bind fun ⟨h₁, joined⟩ hadv => ?_
    replace hadv : Answers h h₁ := hadv
    refine .bind (P := fun _ => True) (.ite (fun _ => .pure trivial) fun _ => ?_)
      fun _ _ => .pure trivial
    exact (hadv.ok.tryAppendRegionalIndicatorPair ch).bind fun _ _ => .pure trivial

/-- What is known once scalars have been written and followed. -/
structure Follows (h : Handler) (p : Printed P) (s : Handler × Printed P) : Prop where
  answers : Answers h s.1
  astray : s.2.astray = false → p.astray = false
  agrees : s.2.astray = false → p.Agrees h.toScreen → s.2.Agrees s.1.toScreen

theorem runs_traceChar (hs : h.toScreen.Ok) (p : Printed P) (ch : Char) :
    Runs (traceChar tracker (h, p) ch) fun s => h.writeChar ch = some s.1 ∧ Follows h p s := by
  obtain ⟨landing, hlanding, -⟩ := hs.runs_landing ch
  obtain ⟨h', hwrite, hadv⟩ := hs.writeChar ch
  have hw := h.writes_writeChar ch hlanding h' hwrite
  refine ⟨(h', p.follow tracker h.toScreen h'.toScreen ch landing), ?_, hwrite, hadv, ?_, ?_⟩
  · unfold traceChar
    rw [hlanding, bind_eq_bind, bind_some, hwrite]
    rfl
  · intro hastray
    exact (Bool.or_eq_false_iff.mp hastray).1
  · intro hastray ha
    exact ha.follow hw (Bool.or_eq_false_iff.mp hastray).2

theorem runs_traceChars (hs : h.toScreen.Ok) (p : Printed P) (chs : List Char) :
    Runs (Checked.each chs (h, p) (traceChar tracker)) fun s =>
      Checked.each chs h Handler.writeChar = some s.1 ∧ Follows h p s := by
  induction chs generalizing h p with
  | nil => exact .pure ⟨rfl, hs.advances_refl, fun ha => ha, fun _ ha => ha⟩
  | cons ch chs ih =>
    obtain ⟨⟨h₁, p₁⟩, htrace, hwrite, hf⟩ := hs.runs_traceChar tracker p ch
    have hrest := ih hf.answers.ok p₁
    unfold Checked.each at hrest ⊢
    rw [List.foldlM_cons, List.foldlM_cons, htrace, hwrite]
    refine hrest.mono fun s ⟨heach, hf₁⟩ => ⟨heach, hf.answers.trans hf₁.answers,
      fun hastray => hf.astray (hf₁.astray hastray), fun hastray ha => ?_⟩
    exact hf₁.agrees hastray (hf.agrees (hf₁.astray hastray) ha)

end Screen.Ok

/-- The scalars a call writes. -/
def Call.scalars (s : Screen) : Call → List Char
  | .print ch =>
    if 0x80 ≤ ch.toNat ∧ ch.toNat ≤ 0x9f then []
    else [Handler.translatePrintable ⟨s, .nothing⟩ ch]
  | .csi params intermediates ignore action =>
    if ignore = false ∧ Csi.decode action intermediates = some .repeatChar then
      Handler.repeated ⟨s, .nothing⟩ (params.at 0 1)
    else []
  | _ => []

/-- A full reset ends the stream. -/
def Call.endsStream : Call → Bool
  | .esc intermediates ignore byte => !ignore && (Esc.decode byte intermediates == some .fullReset)
  | _ => false

namespace Terminal

variable {t t' t'' : Terminal} {p : Printed P}
variable {intermediates : List UInt8}
variable {ignore : Bool} {action : Char}

section

variable [Crates]

/-- Carry out a call, and follow the scalars it writes. -/
def traceCall (s : Terminal × Printed P) (c : Call) : Checked (Terminal × Printed P) := do
  let t ← s.1.call c
  let chs := c.scalars s.1.toScreen
  if chs.isEmpty then pure (t, s.2.moved c.endsStream (tracker.call s.1 c))
  else do
    let (_, printed) ← each chs (⟨s.1.toScreen, .nothing⟩, s.2) (Handler.traceChar tracker)
    pure (t, printed)

/-- Carry out an event, and follow the scalars its calls write. -/
def traceEvent (s : Terminal × Printed P) : Event → Checked (Terminal × Printed P)
  | .step (.process len now calls) => do
    let before := s.1.releaseOverfull
    let (after, printed) ← each calls ({ before with responses := [] }, s.2) (traceCall tracker)
    pure ((recordBatch before after).stampSync len now, printed)
  | e => do
    let t ← s.1.event e
    pure (t, s.2.moved false (tracker.event s.1 e))

/-- Carry out a sequence of events, and follow the scalars they write. -/
def traceRun (s : Terminal × Printed P) (events : List Event) : Checked (Terminal × Printed P) :=
  each events s (traceEvent tracker)

end

variable {tracker}

/-- What holds of a terminal and the stream followed beside it. -/
structure Traced (t : Terminal) (p : Printed P) : Prop where
  ok : t.Ok
  agrees : p.astray = false → p.Agrees t.toScreen

/-- A call that writes no scalar leaves the record alone. -/
def Passes (t t' : Terminal) : Prop := t'.lastGraphic = t.lastGraphic

theorem Passes.trans (h : Passes t t') (h' : Passes t' t'') : Passes t t'' := Eq.trans h' h

theorem Passes.refl (t : Terminal) : Passes t t := rfl

theorem Settles.passes (h : Settles t t') : Passes t t' := h.lastGraphic

theorem Ok.passes_placeImage (hok : t.Ok) (image : StoredImage) (cmd : Command) :
    Yields (t.placeImage image cmd) (Passes t) := by
  unfold Terminal.placeImage
  have hplace : Yields (Handler.placeImage ⟨t.toScreen, .nothing⟩ image cmd) fun out =>
      Handler.Moves ⟨t.toScreen, .nothing⟩ out.1 := fun out heq =>
    (Screen.Ok.placed_placeImage (h := ⟨t.toScreen, .nothing⟩) hok.screen image cmd out heq).toMoves
  refine hplace.bind fun ⟨h', refused⟩ hmoves => .pure ?_
  have hcommit : Passes t (t.commit h') := hmoves.lastGraphic
  cases refused with
  | true => exact hcommit.trans (settles_refuse _).passes
  | false => exact hcommit

theorem Ok.passes_finishTransfer (hok : t.Ok) (image : StoredImage) (cmd : Command) :
    Yields (t.finishTransfer image cmd) (Passes t) := by
  unfold Terminal.finishTransfer
  refine .ite (fun _ => .pure t.settles_refuse.passes) fun _ => ?_
  have hstored : Yields (if cmd.imageId = 0 then pure t
      else do
        let store ← t.store.insert cmd.imageId image
        pure (t.setStore store)) fun t₁ => t₁.Ok ∧ Passes t t₁ := by
    refine .ite (fun _ => .pure ⟨hok, .refl t⟩) fun _ => ?_
    refine Runs.yields (.bind ((hok.balanced.store _).insert cmd.imageId image) fun store hs => ?_)
    exact .pure ⟨preserves_ok.sink hok (hok.balanced.setStore _ hs),
      (t.settles_setStore store).passes⟩
  refine hstored.bind fun t₁ ⟨hok₁, h₁⟩ => .ite (fun _ => ?_) fun _ => .pure h₁
  exact (hok₁.passes_placeImage image cmd).mono fun _ h₂ => h₁.trans h₂

theorem Ok.passes_dispatchGraphics [Crates] (hok : t.Ok) (cmd : Option Command)
    (payload : List UInt8) : Yields (t.dispatchGraphics cmd payload) (Passes t) := by
  cases cmd with
  | none => exact .pure (t.settles_refuse.trans (settles_abortTransfer _)).passes
  | some cmd =>
    have htransmit : Yields (t.transmit cmd payload) (Passes t) := by
      have hopen : Yields (t.openTransfer cmd) fun t₁ => t₁.Ok ∧ Passes t t₁ := by
        intro t₁ heq
        have hruns := (preserves_ok.mirrors.echoes.openTransfer ⟨rfl, hok⟩ cmd).left
        obtain ⟨_, -, -, hok₁⟩ := hruns.yields t₁ heq
        exact ⟨hok₁, (t.settles_openTransfer cmd t₁ heq).passes⟩
      refine hopen.bind fun t₁ ⟨hok₁, h₁⟩ => ?_
      dsimp only
      generalize t₁.graphics.assembler.feed cmd payload = fed
      obtain ⟨assembler, done⟩ := fed
      have hok₂ : Ok { t₁ with graphics := { t₁.graphics with assembler } } :=
        preserves_ok.sink hok₁ ⟨hok₁.balanced.primary, hok₁.balanced.alt⟩
      have hset : Settles t₁ { t₁ with graphics := { t₁.graphics with assembler } } :=
        settles_same rfl
      have h₂ := h₁.trans hset.passes
      cases done with
      | none => exact .pure h₂
      | some done => exact (hok₂.passes_finishTransfer done.1 done.2).mono fun _ h₃ => h₂.trans h₃
    unfold Terminal.dispatchGraphics
    dsimp only
    cases cmd.action with
    | transmit => exact htransmit
    | transmitAndPlace => exact htransmit
    | put =>
      have hok₁ : (t.setStore (t.store.get cmd.imageId).1).Ok :=
        preserves_ok.sink hok (hok.balanced.setStore _ ((hok.balanced.store _).get cmd.imageId))
      have h₁ := (t.settles_setStore (t.store.get cmd.imageId).1).passes
      show Yields (t.putImage cmd) _
      unfold Terminal.putImage
      dsimp only
      cases (t.store.get cmd.imageId).2 with
      | none => exact .pure (h₁.trans (settles_refuse _).passes)
      | some image => exact (hok₁.passes_placeImage image cmd).mono fun _ h₂ => h₁.trans h₂
    | delete =>
      refine (t.settles_deleteImages cmd).bind fun t₁ h₁ => .pure ?_
      exact (h₁.trans t₁.settles_abortTransfer).passes
    | query =>
      apply Yields.pure
      split
      · exact .refl t
      · exact (settles_respond t _).passes
    | animation => exact .pure (.refl t)

theorem Traced.passes (h : Traced t p) (hok : t'.Ok) (hp : Passes t t') (move : P → P) :
    Traced t' (p.moved false move) :=
  ⟨hok, fun hastray => (h.agrees hastray).moved hp move⟩

/-- The scalars a call writes, committed with whatever else it touched. -/
theorem Traced.writes [Crates] (h : Traced t p) {c : Call} {f : Handler → Checked Handler}
    (hcall : t.call c = t.onScreen f)
    (hf : f ⟨t.toScreen, .nothing⟩ =
      each (c.scalars t.toScreen) ⟨t.toScreen, .nothing⟩ Handler.writeChar)
    (hends : c.endsStream = false) :
    Runs (traceCall tracker (t, p) c) fun s => Traced s.1 s.2 := by
  obtain ⟨⟨h', printed⟩, htrace, heach, hfollows⟩ := Screen.Ok.runs_traceChars tracker
    (h := ⟨t.toScreen, .nothing⟩) h.ok.screen p (c.scalars t.toScreen)
  have hscreen : t.call c = some (t.commit h') := by
    rw [hcall, onScreen, hf, heach]
    rfl
  have hok : (t.commit h').Ok := preserves_ok.commit h.ok hfollows.answers.toAdvances
  have hagrees (hastray : printed.astray = false) : printed.Agrees h'.toScreen :=
    hfollows.agrees hastray (h.agrees (hfollows.astray hastray))
  unfold traceCall
  rw [hscreen]
  refine .ite (fun hempty => ?_) fun _ => ?_
  · -- nothing is written, and the record is as it was
    rw [List.isEmpty_iff.mp hempty] at heach
    cases heach
    rw [hends]
    exact .pure ⟨hok, fun hastray => (h.agrees hastray).moved rfl _⟩
  · rw [htrace]
    exact .pure ⟨hok, fun hastray => ⟨(hagrees hastray).record, (hagrees hastray).count⟩⟩

/-- A call that writes no scalar, followed. -/
theorem Traced.quiet [Crates] (h : Traced t p) {c : Call} (hscalars : c.scalars t.toScreen = [])
    (hends : c.endsStream = false) (hcall : Yields (t.call c) (Passes t)) :
    Runs (traceCall tracker (t, p) c) fun s => Traced s.1 s.2 := by
  obtain ⟨t', heq, hok, hpasses⟩ := hcall.runs (preserves_ok.call h.ok c fun _ _ => trivial)
  refine ⟨(t', p.moved false (tracker.call t c)), ?_, h.passes hok hpasses _⟩
  unfold traceCall
  rw [heq, hscalars, hends]
  rfl

/-- A repeat goes on with the cluster. -/
theorem continues_of_repeat (h : Csi.decode action intermediates = some .repeatChar) :
    continuesTheCluster action intermediates = true := by
  unfold Csi.decode at h
  split_ifs at h with hplain
  · subst hplain
    unfold Csi.decodePlain at h
    split at h <;> first | rfl | cases h
  all_goals split at h <;> cases h

theorem passes_execute (t : Terminal) (byte : UInt8) :
    Yields (t.onScreen fun h => h.execute byte) (Passes t) :=
  (Handler.settles_execute ⟨t.toScreen, .nothing⟩ byte).bind fun _ hs => .pure hs.lastGraphic

/-- An escape sequence that is no full reset. -/
theorem passes_escDispatch (t : Terminal) {byte : UInt8}
    (hends : (Call.esc intermediates ignore byte).endsStream = false) :
    Yields (t.escDispatch intermediates ignore byte) (Passes t) := by
  have hclear : Settles t { t with activeGraphemeCell := none } := settles_same rfl
  unfold escDispatch
  refine .ite (fun _ => .pure hclear.passes) fun hacts => ?_
  split
  · exact .pure hclear.passes
  · next hop =>
    rw [Call.endsStream, hop, Bool.eq_false_iff.mpr hacts] at hends
    exact absurd hends (by decide)
  · exact (settles_onScreen (Handler.settles_esc _ _)).mono fun _ hs => (hclear.trans hs).passes

/-- A full reset forgets the character and its record. -/
theorem Traced.reset [Crates] (h : Traced t p)
    {byte : UInt8} (hends : (Call.esc intermediates ignore byte).endsStream = true) :
    Runs (traceCall tracker (t, p) (.esc intermediates ignore byte)) fun s => Traced s.1 s.2 := by
  obtain ⟨hacts, hop⟩ := Bool.and_eq_true_iff.mp hends
  rw [Bool.not_eq_true'] at hacts
  rw [beq_iff_eq] at hop
  have hlast : Yields (t.escDispatch intermediates ignore byte) fun t' =>
    t'.lastGraphic = none := by
    unfold escDispatch
    rw [hacts, hop]
    exact .after fun grid => .pure rfl
  obtain ⟨t', heq, hok, hrecord⟩ := hlast.runs
    (preserves_ok.call h.ok (.esc intermediates ignore byte) fun _ _ => trivial)
  refine ⟨(t', ⟨none, p.astray⟩), ?_, hok, fun _ => ⟨hrecord, fun c hc => by cases hc⟩⟩
  unfold traceCall
  have hcall : t.call (.esc intermediates ignore byte) = some t' := heq
  rw [hcall, hends]
  rfl

theorem Traced.call [Crates] (h : Traced t p) (c : Call) :
    Runs (traceCall tracker (t, p) c) fun s => Traced s.1 s.2 := by
  have hidle : ∀ f : Handler → Handler, (∀ h, Handler.Settles h (f h)) →
      Yields (t.onScreen fun h => pure (f h)) (Passes t) :=
    fun f hf => (settles_onScreen (f := fun h => pure (f h)) (.pure (hf _))).mono
      fun _ hs => hs.passes
  cases c with
  | print ch =>
    by_cases hcontrol : 0x80 ≤ ch.toNat ∧ ch.toNat ≤ 0x9f
    · refine h.quiet (if_pos hcontrol) rfl ?_
      have hprint : t.call (.print ch) = t.onScreen fun h => h.execute (.ofNat ch.toNat) := by
        unfold Terminal.call Handler.print
        simp only [if_pos hcontrol]
      rw [hprint]
      exact t.passes_execute _
    · have hscalars : (Call.print ch).scalars t.toScreen =
          [Handler.translatePrintable ⟨t.toScreen, .nothing⟩ ch] := if_neg hcontrol
      refine h.writes (f := fun h => h.print ch) rfl ?_ rfl
      rw [hscalars]
      unfold Handler.print
      rw [if_neg hcontrol, each, List.foldlM_cons]
      exact (bind_pure _).symm
  | execute byte => exact h.quiet rfl rfl (t.passes_execute byte)
  | csi params intermediates ignore action =>
    by_cases hrepeat : ignore = false ∧ Csi.decode action intermediates = some .repeatChar
    · have hscalars : (Call.csi params intermediates ignore action).scalars t.toScreen =
          Handler.repeated ⟨t.toScreen, .nothing⟩ (params.at 0 1) := if_pos hrepeat
      obtain ⟨rfl, hop⟩ := hrepeat
      have hcontinues := continues_of_repeat hop
      have hcall : t.call (.csi params intermediates false action) =
          t.onScreen fun h => h.repeatPrecedingChar (params.at 0 1) := by
        show t.csiDispatch params intermediates false action = _
        unfold csiDispatch
        rw [if_pos hcontinues, hop]
        rfl
      refine h.writes hcall ?_ rfl
      rw [hscalars]
      exact Handler.repeatPrecedingChar_eq _ _
    · refine h.quiet (if_neg hrepeat) rfl ((t.settles_csiDispatch ?_).mono fun _ hs => hs.passes)
      rwa [not_and_or, Bool.not_eq_false] at hrepeat
  | esc intermediates ignore byte =>
    cases hends : (Call.esc intermediates ignore byte).endsStream with
    | true => exact h.reset hends
    | false => exact h.quiet rfl hends (t.passes_escDispatch hends)
  | osc params bell => exact h.quiet rfl rfl (hidle _ fun h => h.settles_oscDispatch params bell)
  | hook intermediates ignore action =>
    exact h.quiet rfl rfl (hidle _ fun h => h.settles_hook intermediates ignore action)
  | put byte => exact h.quiet rfl rfl (hidle _ fun h => h.settles_putDcs byte)
  | unhook => exact h.quiet rfl rfl (hidle _ Handler.settles_unhook)
  | graphics cmd payload => exact h.quiet rfl rfl (h.ok.passes_dispatchGraphics cmd payload)
  | status reply =>
    exact h.quiet rfl rfl (hidle (fun h => (reply.map h.pushResponse).getD h)
      fun h => h.settles_status reply)

theorem passes_resize (t : Terminal) (rows cols : Nat) :
    Yields (t.resize rows cols) (Passes t) := by
  have hscreens : ∀ u : Terminal, ∀ rows cols, Yields (u.resizeScreens rows cols) fun u' =>
      u'.lastGraphic = u.lastGraphic := by
    intro u rows cols
    unfold resizeScreens
    refine .ite (fun _ => .after fun grid => ?_) fun _ => .after fun ⟨grid, position⟩ => ?_
    · cases u.altGrid with
      | none => exact .pure rfl
      | some primary =>
        cases u.altCursor with
        | none => exact .after fun out => .pure rfl
        | some cursor => exact .after fun out => .pure rfl
    · cases u.altGrid with
      | none => exact .pure rfl
      | some alt => exact .after fun alt => .pure rfl
  rw [resize_eq]
  refine (hscreens _ _ _).bind fun t' hrecord => .pure ?_
  generalize t.resizes (max rows 1) (max cols 1) = changed at hrecord ⊢
  have hstart : (t.resizeStart changed).lastGraphic = t.lastGraphic := by
    unfold resizeStart
    dsimp only
    split
    · rfl
    · rfl
  cases changed with
  | true => exact hrecord.trans hstart
  | false => exact hrecord.trans hstart

/-- Every event but a batch. -/
theorem passes_event [Crates] {e : Event}
    (hquiet : ∀ len now calls, e ≠ .step (.process len now calls)) :
    Yields (t.event e) (Passes t) := by
  cases e with
  | takeDirtyRegions => exact .pure t.settles_takeDirtyRegions.passes
  | clearScrollback => exact .pure rfl
  | step s =>
    cases s with
    | process len now calls => exact absurd rfl (hquiet len now calls)
    | resize rows cols =>
      have hstep : Yields (t.step (.resize rows cols)) fun out => Passes t out.1 :=
        (t.passes_resize rows cols).bind fun t' hp => .pure hp
      exact hstep.bind fun out hp => .pure hp
    | enterAlternateScreen => exact .pure t.settles_enterAlternateScreen.passes
    | leaveAlternateScreen => exact .pure t.settles_leaveAlternateScreen.passes
    | releaseExpiredSync now => exact .pure (t.settles_releaseExpiredSync now).passes

/-- A step that leaves the record alone, between the calls of a batch. -/
theorem Traced.settles (h : Traced t p) (hok : t'.Ok) (hi : Settles t t') : Traced t' p :=
  ⟨hok, fun hastray =>
    ⟨hi.lastGraphic.trans (h.agrees hastray).record, (h.agrees hastray).count⟩⟩

theorem Traced.event [Crates] (h : Traced t p) (e : Event) :
    Runs (traceEvent tracker (t, p) e) fun s => Traced s.1 s.2 := by
  have hother : (∀ len now calls, e ≠ .step (.process len now calls)) →
      Runs (do
        let t' ← t.event e
        pure (t', p.moved false (tracker.event t e))) fun s => Traced s.1 s.2 := by
    intro hquiet
    refine ((passes_event hquiet).runs (h.ok.event e)).bind fun t' ht' => .pure ?_
    exact h.passes ht'.1 ht'.2 _
  cases e with
  | takeDirtyRegions | clearScrollback => exact hother nofun
  | step s =>
    cases s with
    | process len now calls =>
      have hopen : Traced { t.releaseOverfull with responses := [] } p :=
        h.settles h.ok.releaseOverfull.clearResponses
          (t.settles_releaseOverfull.trans (settles_respond _ _))
      have hcalls : Runs
        (each calls ({ t.releaseOverfull with responses := [] }, p) (traceCall tracker))
          fun s => Traced s.1 s.2 :=
        .each _ hopen fun c _ s hs => hs.call c
      refine hcalls.bind fun s hs => .pure ?_
      exact hs.settles ((hs.ok.recordBatch _).stampSync len now)
        (s.1.settles_endOfBatch _ len now)
    | resize rows cols | enterAlternateScreen | leaveAlternateScreen | releaseExpiredSync now =>
      exact hother nofun

theorem Traced.run [Crates] (h : Traced t p) (events : List Event) :
    Runs (traceRun tracker (t, p) events) fun s => Traced s.1 s.2 :=
  .each (fun s : Terminal × Printed P => Traced s.1 s.2) h fun e _ _ hs => hs.event e

/-- The record is the last printed character with the scalars that joined its own cell, and a
repeat writes no more scalars than two for each cell, or one character. -/
structure RepeatBounded (s : Terminal × Printed P) : Prop where
  source : s.1.lastGraphic = s.2.last.map Character.record
  count : ∀ record, s.1.lastGraphic = some record → record.scalarCount ≤ maxGraphemeScalars
  work : ∀ count, (Handler.repeated ⟨s.1.toScreen, .nothing⟩ count).length ≤
    max (2 * s.1.grid.rows * s.1.grid.cols) maxGraphemeScalars

end Terminal

namespace Handler

variable {h : Handler}

/-- The copies of a repeat are within the budget, or there is one. -/
theorem length_repeated (hrows : 1 ≤ h.grid.rows) (hcols : 1 ≤ h.grid.cols)
    (hcount : ∀ record, h.lastGraphic = some record → record.scalarCount ≤ maxGraphemeScalars)
    (count : Nat) : (h.repeated count).length ≤
      max (2 * h.grid.rows * h.grid.cols) maxGraphemeScalars := by
  unfold repeated
  cases hlast : h.lastGraphic with
  | none => exact Nat.zero_le _
  | some source =>
    have hsource := hcount source hlast
    have hcells : 1 ≤ h.grid.rows * h.grid.cols := Nat.mul_pos hrows hcols
    dsimp only
    split
    · exact Nat.zero_le _
    have hlen : source.scalars.length = source.scalarCount := Nat.add_comm ..
    rw [List.length_flatten, List.map_replicate, List.sum_replicate, smul_eq_mul, hlen]
    unfold repeatIterations
    dsimp only
    rw [max_eq_left hcells]
    generalize source.scalarCount = n at hsource ⊢
    have hbudget : h.grid.rows * h.grid.cols * 2 / n * n ≤ h.grid.rows * h.grid.cols * 2 :=
      Nat.div_mul_le_self _ _
    have hdouble : 2 * h.grid.rows * h.grid.cols = h.grid.rows * h.grid.cols * 2 := by ring
    rw [hdouble]
    generalize h.grid.rows * h.grid.cols = cells at hbudget ⊢
    calc min (min count cells) (max (cells * 2 / n) 1) * n
        ≤ max (cells * 2 / n) 1 * n := Nat.mul_le_mul_right _ (min_le_right _ _)
      _ = max (cells * 2 / n * n) (1 * n) := (Nat.mul_max_mul_right ..).symm
      _ ≤ max (cells * 2) maxGraphemeScalars := by
        rw [one_mul]
        exact max_le_max hbudget hsource

end Handler

namespace Terminal

variable {tracker} {t : Terminal} {p : Printed P}

theorem Traced.repeatBounded (h : Traced t p) (hastray : p.astray = false) :
    RepeatBounded (t, p) := by
  have ha := h.agrees hastray
  have hcount : ∀ record, t.lastGraphic = some record →
      record.scalarCount ≤ maxGraphemeScalars := by
    intro record hrecord
    rw [ha.record] at hrecord
    obtain ⟨c, hc, rfl⟩ := Option.map_eq_some_iff.mp hrecord
    exact (Nat.add_comm ..).trans_le (ha.count c hc)
  refine ⟨ha.record, hcount, fun count => ?_⟩
  exact Handler.length_repeated (h := ⟨t.toScreen, .nothing⟩) h.ok.screen.rows h.ok.screen.cols
    hcount count

variable [Crates]

omit [Crates] in
/-- A loop over a pair, followed in its first component. -/
theorem yields_each_fst {α β ι : Type} {f : α × β → ι → Checked (α × β)} {g : α → ι → Checked α}
    (hstep : ∀ s i, Yields (f s i) fun s' => g s.1 i = some s'.1) (is : List ι) (s : α × β) :
    Yields (each is s f) fun s' => each is s.1 g = some s'.1 := by
  induction is generalizing s with
  | nil => exact .pure rfl
  | cons i is ih =>
    unfold each at ih ⊢
    rw [List.foldlM_cons, List.foldlM_cons]
    refine (hstep s i).bind fun s₁ hs₁ => ?_
    rw [hs₁]
    exact ih s₁

variable (tracker)

theorem yields_traceCall (s : Terminal × Printed P) (c : Call) :
    Yields (traceCall tracker s c) fun s' => s.1.call c = some s'.1 := by
  have hcall : Yields (s.1.call c) fun t => s.1.call c = some t := fun _ heq => heq
  exact hcall.bind fun t ht => .ite (fun _ => .pure ht) fun _ => .after fun _ => .pure ht

theorem yields_traceEvent (s : Terminal × Printed P) (e : Event) :
    Yields (traceEvent tracker s e) fun s' => s.1.event e = some s'.1 := by
  have hother : Yields (do
      let t ← s.1.event e
      pure (t, s.2.moved false (tracker.event s.1 e))) fun s' => s.1.event e = some s'.1 := by
    intro s' heq
    obtain ⟨t, ht, hdone⟩ := Option.bind_eq_some_iff.mp heq
    cases hdone
    exact ht
  cases e with
  | takeDirtyRegions => exact hother
  | clearScrollback => exact hother
  | step st =>
    cases st with
    | process len now calls =>
      refine (yields_each_fst (yields_traceCall tracker) calls _).bind fun s₁ hs₁ => .pure ?_
      show (do
        let out ← s.1.processWithResponses len now calls
        pure out.1) = _
      unfold processWithResponses
      dsimp only at hs₁ ⊢
      rw [hs₁]
      rfl
    | resize rows cols | enterAlternateScreen | leaveAlternateScreen | releaseExpiredSync now =>
      exact hother

/-- In a run in which no scalar goes astray, the record is the last printed character with the
scalars that joined its own cell, and the work of a repeat is bounded, in whichever way the cell is
tracked. -/
theorem run_repeatBounded (rows cols : Nat) (config : GridConfig) (events : List Event) :
    Runs (traceRun tracker (withConfig rows cols config, .nothing) events) fun s =>
      (withConfig rows cols config).run events = some s.1 ∧
        (s.2.astray = false → RepeatBounded s) := by
  have hstart : Traced (withConfig rows cols config) (.nothing : Printed P) :=
    ⟨ok_withConfig rows cols config, fun _ => Printed.agrees_nothing rfl⟩
  have hfst := yields_each_fst (yields_traceEvent tracker) events
    (withConfig rows cols config, Printed.nothing)
  obtain ⟨s, heq, hs⟩ : Runs (traceRun tracker (withConfig rows cols config, .nothing) events)
      fun s => Traced s.1 s.2 := hstart.run events
  exact ⟨s, heq, hfst s heq, fun hastray => hs.repeatBounded hastray⟩

end Terminal

namespace Sample

open Terminal

/-- Letters are narrow, and the combining acute has no width. -/
@[reducible]
def markCrates : Crates := ⟨fun ch => if ch = '\u0301' then some 0 else some 1, fun _ => none⟩

/-- Two letters, and two marks over the first one. -/
def strayMarks : List Event :=
  [.step (.process 10 0 [.print 'A', .print 'B', .execute 0x0d, .csi [] [] false 'C',
    .print '\u0301', .print '\u0301'])]

/-- A letter, the bell, and a mark that falls back to the letter. -/
def lateMark : List Event :=
  [.step (.process 4 0 [.print 'A', .execute 0x07, .print '\u0301'])]

/-- A cell that stays where it is. -/
def stays : Tracker (Option (Nat × Nat)) where
  put s := s.activeGraphemeCell
  call _ _ place := place
  event _ _ place := place
  cell _ place := place

/-- The second mark joins the cell the first one strayed to, and the record with it. -/
theorem repeatBounded_false : ¬ ∀ events, Runs
    (@traceRun _ stays markCrates (withConfig 1 4 .default, .nothing) events) RepeatBounded := by
  intro h
  obtain ⟨s, heq, hs⟩ := h strayMarks
  have hsource := hs.source
  have hrecord : (@traceRun _ stays markCrates (withConfig 1 4 .default, .nothing) strayMarks).map
      (fun s => decide (s.1.lastGraphic = s.2.last.map Character.record)) = some false := by
    decide
  rw [heq, map_some, Option.some.injEq] at hrecord
  exact absurd hsource (decide_eq_false_iff_not.mp hrecord)

/-- The record loses a mark that joins the character after the cluster has ended. -/
example : (@traceRun _ stays markCrates (withConfig 1 4 .default, .nothing) lateMark).map (fun s =>
    (s.1.lastGraphic, s.2.last.map Character.record, s.2.astray)) =
      some (some ⟨'A', []⟩, some ⟨'A', ['\u0301']⟩, true) := by decide

end Sample

end Shux.Vt
