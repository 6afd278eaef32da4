/-
# Pastes of several clients do not mix

Clients send pieces of their pastes and keys, and other input reaches the same pane between them.
Every call runs under the lock of the tables, so a run is a sequence of calls with anything the
daemon does elsewhere in between.

What is queued to the pane's writer is a stream of items that take turns: a marker, pieces of one
paste of one client, a marker, other input, and so on. Each call adds a few items to it and the
record of the open paste says which stretch is open behind them.
-/

import Shux.Io.Paste
import Shux.Lib.Brackets

namespace Shux.Io

open FinMap List Function Option Brackets

/-- What a sender means its input to be. -/
inductive Input where
  | plain (bytes : Bytes)
  | piece (client paste : Nat) (bytes : Bytes)
  deriving DecidableEq

def Input.of (bytes : Bytes) (paste : Option (Bool × Nat)) (client : Nat) : Input :=
  match paste with
  | none => .plain bytes
  | some (_, paste) => .piece client paste bytes

def markers : Brackets.Markers UInt8 where
  esc := esc
  opening := [0x5b, 0x32, 0x30, 0x30, 0x7e]
  closing := [0x5b, 0x32, 0x30, 0x31, 0x7e]
  opening_free := by decide
  closing_free := by decide
  differ := by decide
  differ' := by decide

@[simp] theorem markers_start : markers.start = pasteStart := rfl
@[simp] theorem markers_stop : markers.stop = pasteEnd := rfl

/-- A stretch belongs to a client and one of its pastes. -/
abbrev Stretch := Brackets.Item UInt8 (Nat × Nat)

/-- The input an item came from. -/
def input? : Stretch → Option Input
  | .start _ => none
  | .stop => none
  | .inside owner text => some (.piece owner.1 owner.2 text)
  | .outside text => some (.plain text)

def inputs (items : List Stretch) : List Input := items.filterMap input?

@[simp] theorem inputs_append (items more : List Stretch) :
    inputs (items ++ more) = inputs items ++ inputs more := filterMap_append

@[simp] theorem render_append (items more : List Stretch) :
    render markers (items ++ more) = render markers items ++ render markers more := flatMap_append

/-- The items that an input makes of a stream in which `owner`'s paste is open. -/
def framed (owner : Option (Nat × Nat)) (bytes : Bytes) (paste : Option (Bool × Nat))
    (client : Nat) : List Stretch :=
  match paste with
  | none => (owner.toList.map fun _ => .stop) ++ [.outside bytes]
  | some (more, paste) =>
    (if owner = some (client, paste) then []
      else (owner.toList.map fun _ => .stop) ++ [.start (client, paste)]) ++
      [.inside (client, paste) bytes] ++ if more then [] else [.stop]

/-- The paste that is open after an input. -/
def ownerAfter (paste : Option (Bool × Nat)) (client : Nat) : Option (Nat × Nat) :=
  (paste.filter Prod.fst).map fun piece => (client, piece.2)

theorem inputs_framed (owner : Option (Nat × Nat)) (bytes : Bytes) (paste : Option (Bool × Nat))
    (client : Nat) : inputs (framed owner bytes paste client) = [.of bytes paste client] := by
  rcases paste with _ | ⟨_ | _, id⟩ <;> cases owner <;> simp only [framed] <;> try split
  all_goals rfl

theorem turns_framed (owner : Option (Nat × Nat)) (bytes : Bytes) (paste : Option (Bool × Nat))
    (client : Nat) :
    Brackets.Turns owner (framed owner bytes paste client) (ownerAfter paste client) := by
  cases paste with
  | none =>
    have hout : Brackets.Turns none [.outside bytes] (none : Option (Nat × Nat)) :=
      .cons (.outside bytes) (.nil none)
    cases owner with
    | none => exact hout
    | some owner => exact .cons (.stop owner) hout
  | some piece =>
    obtain ⟨more, id⟩ := piece
    have hend : Brackets.Turns (some (client, id)) (if more then [] else [.stop] : List Stretch)
        (ownerAfter (some (more, id)) client) := by
      cases more with
      | true => exact .nil _
      | false => exact .cons (.stop _) (.nil _)
    have hpiece : Brackets.Turns (some (client, id))
        ([.inside (client, id) bytes] ++ if more then [] else [.stop])
        (ownerAfter (some (more, id)) client) := .cons (.inside _ _) hend
    rw [framed, append_assoc]
    split
    · next h => rw [h]; exact hpiece
    · cases owner with
      | none => exact .cons (.start _) hpiece
      | some owner => exact .cons (.stop _) (.cons (.start _) hpiece)

/-- How an input finds the open paste. -/
def openFor (owner : Option (Nat × Nat)) (paste : Option (Bool × Nat)) (client : Nat) : Open :=
  match owner with
  | none => .closed
  | some owner =>
    if paste.any fun piece => decide (owner = (client, piece.2)) then .continued else .other

/-- ESC is removed from pasted text. -/
theorem render_inside (owner : Nat × Nat) (text : Bytes) :
    Brackets.Item.render markers (.inside owner text) = text.filter fun b => decide (b ≠ esc) :=
  rfl

theorem frameInput_framed (owner : Option (Nat × Nat)) (bytes : Bytes)
    (paste : Option (Bool × Nat)) (client : Nat) :
    frameInput bytes (paste.map Prod.fst) (openFor owner paste client) true =
      (render markers (framed owner bytes paste client), (ownerAfter paste client).isSome) := by
  cases paste with
  | none =>
    cases owner <;>
      simp [frameInput, openFor, framed, ownerAfter, render, Brackets.Item.render]
  | some piece =>
    obtain ⟨more, id⟩ := piece
    cases owner with
    | none =>
      cases more <;>
        simp [frameInput, openFor, framed, ownerAfter, render, render_inside,
          Option.filter] <;> simp [Brackets.Item.render]
    | some owner =>
      by_cases h : owner = (client, id) <;> cases more <;>
        simp [frameInput, openFor, framed, ownerAfter, render, render_inside,
          Option.filter, h] <;> simp [Brackets.Item.render]

namespace PasteIo

variable {permit : Handle}
variable {arrived : List Input} {target : PaneId}

/-- The client and the number of the paste open in a pane. -/
def owner (io : PasteIo) (pane : PaneId) : Option (Nat × Nat) :=
  (io.openPaste pane).map fun «open» => («open».client, «open».paste)

/-- A pane whose writer is its own and whose program is in bracketed paste mode. -/
structure Lives (io : PasteIo) (pane : PaneId) (writer : Handle) : Prop where
  current : io.writers.get pane = some writer
  alone : ∀ other, io.writers.get other = some writer → other = pane
  wants : io.vts.get pane = some true

/-- What arrived at a pane's writer between two states, and that the record kept up with it. A
program that went away takes no more. -/
structure Feeds (pane : PaneId) (writer : Handle) (io : PasteIo) (arrived : List Input)
    (io' : PasteIo) : Prop where
  lives : io'.Lives pane writer
  program : io'.incarnations.get pane = io.incarnations.get pane
  shut : io.closed writer = true →
    io'.closed writer = true ∧ io'.queued writer = io.queued writer ∧ arrived = []
  feed : io.closed writer = false → ∃ items state,
    io'.queued writer = io.queued writer ++ render markers items ∧
      inputs items = arrived ∧ Brackets.Turns (io.owner pane) items state ∧
        (io'.closed writer = false → state = io'.owner pane)

variable {pane : PaneId} {writer : Handle} {io io' io'' : PasteIo}

theorem Feeds.trans {more : List Input} (h : Feeds pane writer io arrived io')
    (h' : Feeds pane writer io' more io'') : Feeds pane writer io (arrived ++ more) io'' := by
  refine ⟨h'.lives, h'.program.trans h.program, fun hclosed => ?_, fun hopen => ?_⟩
  · obtain ⟨hclosed', hqueued, harrived⟩ := h.shut hclosed
    obtain ⟨hclosed'', hqueued', hmore⟩ := h'.shut hclosed'
    exact ⟨hclosed'', hqueued'.trans hqueued, by rw [harrived, hmore]; rfl⟩
  · obtain ⟨items, state, hqueued, hinputs, hturns, hstate⟩ := h.feed hopen
    cases hclosed' : io'.closed writer with
    | true =>
      -- The program went away in the first part: nothing arrives in the second.
      obtain ⟨hclosed'', hqueued', hmore⟩ := h'.shut hclosed'
      refine ⟨items, state, hqueued'.trans hqueued, ?_, hturns, fun hopen'' => ?_⟩
      · rw [hinputs, hmore, append_nil]
      · rw [hclosed''] at hopen''
        cases hopen''
    | false =>
      obtain ⟨items', state', hqueued', hinputs', hturns', hstate'⟩ := h'.feed hclosed'
      rw [← hstate hclosed'] at hturns'
      refine ⟨items ++ items', state', ?_, ?_, hturns.append hturns', hstate'⟩
      · rw [hqueued', hqueued, render_append, append_assoc]
      · rw [inputs_append, hinputs, hinputs']

/-- A change that leaves a pane's record and its channel as they are, except that its program may
go away. -/
structure Elsewhere (pane : PaneId) (writer : Handle) (io io' : PasteIo) : Prop where
  current : io'.writers.get pane = io.writers.get pane
  alone : ∀ other, io'.writers.get other = some writer → other = pane
  program : io'.incarnations.get pane = io.incarnations.get pane
  wants : io'.vts.get pane = io.vts.get pane
  record : io'.openPastes.get pane = io.openPastes.get pane
  queued : io'.queued writer = io.queued writer
  closed : io.closed writer = true → io'.closed writer = true

theorem openPaste_congr (hprogram : io'.incarnations.get pane = io.incarnations.get pane)
    (hwants : io'.vts.get pane = io.vts.get pane)
    (hrecord : io'.openPastes.get pane = io.openPastes.get pane) :
    io'.openPaste pane = io.openPaste pane := by
  unfold openPaste pasteTarget
  rw [hprogram, hwants, hrecord]

theorem Lives.feeds_elsewhere (h : io.Lives pane writer) (helse : Elsewhere pane writer io io') :
    Feeds pane writer io [] io' := by
  refine ⟨⟨helse.current.trans h.current, helse.alone, helse.wants.trans h.wants⟩, helse.program,
    fun hclosed => ⟨helse.closed hclosed, helse.queued, rfl⟩, fun _ => ?_⟩
  refine ⟨[], io.owner pane, ?_, rfl, .nil _, fun _ => ?_⟩
  · rw [helse.queued]
    exact (append_nil _).symm
  · rw [owner, owner, openPaste_congr helse.program helse.wants helse.record]

/-- The tables that say which program a pane runs are the same. -/
structure SameTables (io io' : PasteIo) : Prop where
  writers : io'.writers = io.writers
  incarnations : io'.incarnations = io.incarnations
  vts : io'.vts = io.vts
  closed : io'.closed = io.closed

theorem send_same (io : PasteIo) (permit : Handle) (bytes : Bytes) :
    SameTables io (io.send permit bytes).2 ∧
      (io.send permit bytes).2.openPastes = io.openPastes := by
  unfold send
  split <;> exact ⟨⟨rfl, rfl, rfl, rfl⟩, rfl⟩

theorem send_queued_ne (h : permit ≠ writer) (bytes : Bytes) :
    (io.send permit bytes).2.queued writer = io.queued writer := by
  unfold send
  split
  · rfl
  · exact update_of_ne h.symm _ _

theorem send_open (h : io.closed writer = false) (bytes : Bytes) :
    io.send writer bytes =
      (true, { io with queued := update io.queued writer (io.queued writer ++ bytes) }) := by
  rw [send, h]
  rfl

theorem send_closed (h : io.closed writer = true) (bytes : Bytes) :
    io.send writer bytes = (false, io) := by
  rw [send, h]
  rfl

/-- Sending does not look at the record. -/
theorem send_removed (io : PasteIo) (pane : PaneId) (permit : Handle) (bytes : Bytes) :
    ({ io with openPastes := io.openPastes.remove pane }.send permit bytes).2 =
      { (io.send permit bytes).2 with openPastes := io.openPastes.remove pane } := by
  unfold send
  split <;> rfl

theorem SameTables.elsewhere (hlives : io.Lives pane writer) (h : SameTables io io')
    (hrecord : io'.openPastes.get pane = io.openPastes.get pane)
    (hqueued : io'.queued writer = io.queued writer) : Elsewhere pane writer io io' where
  current := by rw [h.writers]
  alone := by rw [h.writers]; exact hlives.alone
  program := by rw [h.incarnations]
  wants := by rw [h.vts]
  record := hrecord
  queued := hqueued
  closed := by rw [h.closed]; exact id

theorem Lives.feeds_other (h : io.Lives pane writer) (hsame : SameTables io io')
    (hrecord : io'.openPastes.get pane = io.openPastes.get pane)
    (hqueued : io'.queued writer = io.queued writer) : Feeds pane writer io [] io' :=
  h.feeds_elsewhere (hsame.elsewhere h hrecord hqueued)

/-- A call that queues the items of its input and records the stretch open behind them. -/
theorem Lives.feeds_send (hlives : io.Lives pane writer) (items : List Stretch)
    (records : FinMap PaneId OpenPaste) {state : Option (Nat × Nat)}
    (hturns : Brackets.Turns (io.owner pane) items state)
    (hstate : PasteIo.owner { io with openPastes := records } pane = state) :
    Feeds pane writer io (if io.closed writer = false then inputs items else [])
      { (io.send writer (render markers items)).2 with openPastes := records } := by
  obtain ⟨hsame, -⟩ := send_same io writer (render markers items)
  refine ⟨⟨?_, ?_, ?_⟩, ?_, fun hclosed => ?_, fun hopen => ?_⟩
  · exact (congrArg (·.get pane) hsame.writers).trans hlives.current
  · show ∀ other, (io.send writer _).2.writers.get other = some writer → other = pane
    rw [hsame.writers]
    exact hlives.alone
  · exact (congrArg (·.get pane) hsame.vts).trans hlives.wants
  · exact congrArg (·.get pane) hsame.incarnations
  · rw [send_closed hclosed, if_neg (by rw [hclosed]; exact Bool.noConfusion)]
    exact ⟨hclosed, rfl, rfl⟩
  · rw [send_open hopen, if_pos hopen]
    exact ⟨items, state, update_self .., rfl, hturns, fun _ => hstate.symm⟩

section

variable (h : io.Lives pane writer)
include h

theorem Lives.isCurrentWriter :
    io.isCurrentWriter pane writer = true := decide_eq_true h.current

theorem Lives.pasteTarget : io.pasteTarget pane = ((io.incarnations.get pane).getD 0, true) := by
  rw [PasteIo.pasteTarget, h.wants]
  rfl

theorem Lives.openPaste :
    io.openPaste pane = (io.openPastes.get pane).filter fun «open» =>
      decide («open».program = (io.incarnations.get pane).getD 0) := by
  rw [PasteIo.openPaste, h.pasteTarget]
  rfl

/-- What a piece of input finds open is what the record says. -/
theorem Lives.found_eq (paste : Option (Bool × Nat)) (client : Nat) :
    io.found pane paste client = openFor (io.owner pane) paste client := by
  rw [found, owner, h.openPaste, h.pasteTarget]
  cases io.openPastes.get pane with
  | none => rfl
  | some record =>
    by_cases hprogram : record.program = (io.incarnations.get pane).getD 0
    · simp only [Option.filter, any_some, hprogram, decide_true, Bool.true_and, if_true]
      rfl
    · simp only [Option.filter, any_some, hprogram, decide_false, Bool.false_and,
        Bool.false_eq_true, if_false]
      rfl

end

/-- The record of a paste that is open in the program of a pane. -/
def recordOf (io : PasteIo) (pane : PaneId) (owner : Nat × Nat) : OpenPaste :=
  { program := (io.incarnations.get pane).getD 0, client := owner.1, paste := owner.2 }

section

variable (h : io.Lives pane writer)
include h

theorem Lives.owner_insert (owner : Nat × Nat) :
    PasteIo.owner { io with openPastes := io.openPastes.insert pane (io.recordOf pane owner) }
      pane = some owner := by
  have hlives : Lives { io with openPastes := io.openPastes.insert pane (io.recordOf pane owner) }
      pane writer := ⟨h.current, h.alone, h.wants⟩
  rw [PasteIo.owner, hlives.openPaste, get_insert_self]
  simp [Option.filter, recordOf]

theorem Lives.owner_remove :
    PasteIo.owner { io with openPastes := io.openPastes.remove pane } pane = none := by
  have hlives : Lives { io with openPastes := io.openPastes.remove pane } pane writer :=
    ⟨h.current, h.alone, h.wants⟩
  rw [owner, hlives.openPaste, get_remove, if_pos rfl]
  rfl

/-- A piece of input adds its items and leaves open what its sender will go on with. -/
theorem Lives.feeds_sendInput (bytes : Bytes) (paste : Option (Bool × Nat)) (client : Nat) :
    Feeds pane writer io (if io.closed writer = false then [.of bytes paste client] else [])
      (io.sendInput pane writer bytes paste client) := by
  have hturns := turns_framed (io.owner pane) bytes paste client
  obtain ⟨hsame, hkept⟩ := send_same io writer
    (render markers (framed (io.owner pane) bytes paste client))
  have hsent : io.sendInput pane writer bytes paste client =
      { (io.send writer (render markers (framed (io.owner pane) bytes paste client))).2 with
        openPastes := (ownerAfter paste client).elim (io.openPastes.remove pane) fun owner =>
          io.openPastes.insert pane (io.recordOf pane owner) } := by
    rw [PasteIo.sendInput, h.isCurrentWriter, h.pasteTarget]
    simp only [h.found_eq, frameInput_framed, Bool.not_true, Bool.false_eq_true, if_false, hkept]
    rcases paste with _ | ⟨_ | _, id⟩ <;> rfl
  rw [hsent, ← inputs_framed (io.owner pane)]
  refine h.feeds_send _ _ hturns ?_
  rcases paste with _ | ⟨_ | _, id⟩
  · exact h.owner_remove
  · exact h.owner_remove
  · exact h.owner_insert (client, id)

theorem Lives.feeds_sendOutsidePaste (bytes : Bytes) :
    Feeds pane writer io (if io.closed writer = false then [.plain bytes] else [])
      (io.sendOutsidePaste pane writer bytes).2 := by
  have hturns := turns_framed (io.owner pane) bytes none 0
  obtain ⟨-, hkept⟩ := send_same io writer bytes
  rw [PasteIo.sendOutsidePaste, h.isCurrentWriter, Bool.true_and]
  cases hopen : io.openPaste pane with
  | none =>
    have howner : io.owner pane = none := by rw [owner, hopen]; rfl
    have hout : Brackets.Turns (io.owner pane) [.outside bytes] none := by
      rw [howner] at hturns ⊢
      exact hturns
    have hrender : render markers ([.outside bytes] : List Stretch) = bytes := append_nil bytes
    have hfeeds := h.feeds_send [.outside bytes] io.openPastes hout howner
    rw [hrender, ← hkept] at hfeeds
    exact hfeeds
  | some record =>
    have howner : io.owner pane = some (record.client, record.paste) := by
      rw [owner, hopen]
      rfl
    have hout : Brackets.Turns (io.owner pane) [.stop, .outside bytes] none := by
      rw [howner] at hturns ⊢
      exact hturns
    have hrender : render markers ([.stop, .outside bytes] : List Stretch) =
        pasteEnd ++ bytes := congrArg (pasteEnd ++ ·) (append_nil bytes)
    have hfeeds := h.feeds_send [.stop, .outside bytes] (io.openPastes.remove pane) hout
      h.owner_remove
    rw [hrender] at hfeeds
    rw [if_pos isSome_some, send_removed]
    exact hfeeds

/-- Ending the paste that is open. -/
theorem Lives.feeds_closePaste (hopen : (io.openPaste pane).isSome) (room : Bool) :
    Feeds pane writer io [] (io.closePaste pane room) ∧
      (io.closed writer = false → (io.closePaste pane room).openPaste pane = none) := by
  obtain ⟨record, hrecord⟩ := Option.isSome_iff_exists.1 hopen
  rw [closePaste, h.current]
  cases hclosed : io.closed writer with
  | true =>
    have hnone : io.tryReserveIn writer room .urgent = .error .closed := by
      rw [tryReserveIn, hclosed]
      rfl
    refine ⟨?_, fun hfalse => by cases hfalse⟩
    simp only [hnone]
    exact h.feeds_other ⟨rfl, rfl, rfl, rfl⟩ rfl rfl
  | false =>
    have hsome : io.tryReserveIn writer room .urgent = .ok writer := by
      rw [tryReserveIn, hclosed]
      simp
    have howner : io.owner pane = some (record.client, record.paste) := by
      rw [owner, hrecord]
      rfl
    have hturns : Brackets.Turns (io.owner pane) ([.stop] : List Stretch) none := by
      rw [howner]
      exact .cons (.stop _) (.nil none)
    have hfeeds := h.feeds_send [.stop] (io.openPastes.remove pane) hturns h.owner_remove
    have hrender : render markers ([.stop] : List Stretch) = pasteEnd := rfl
    rw [hrender, if_pos hclosed] at hfeeds
    simp only [hsome]
    rw [send_removed]
    refine ⟨hfeeds, fun _ => ?_⟩
    have hnone := h.owner_remove
    rw [owner, map_eq_none_iff] at hnone
    obtain ⟨hsame, -⟩ := send_same io writer pasteEnd
    rw [← hnone]
    exact openPaste_congr (congrArg (·.get pane) hsame.incarnations)
      (congrArg (·.get pane) hsame.vts) rfl

end

/-- The room that is found is in the writer that was asked. -/
theorem tryReserveIn_eq {other : Handle} {room : Bool} {lane : Lane}
    (h : io.tryReserveIn other room lane = .ok permit) : permit = other := by
  unfold tryReserveIn at h
  split at h
  · cases h
  · split at h
    · exact (Except.ok.inj h).symm
    · cases h

/-! ## Calls for other panes -/

/-- The writer of another pane is another channel. -/
theorem Lives.target_ne (h : io.Lives pane writer)
    (hcurrent : io.isCurrentWriter target permit = true) (hpermit : permit ≠ writer) :
    target ≠ pane := by
  rintro rfl
  have hwriter := of_decide_eq_true hcurrent
  rw [h.current, some_inj] at hwriter
  exact hpermit hwriter.symm

theorem Lives.feeds_sendInput_other (h : io.Lives pane writer) (target : PaneId)
    (hpermit : permit ≠ writer) (bytes : Bytes) (paste : Option (Bool × Nat)) (client : Nat) :
    Feeds pane writer io [] (io.sendInput target permit bytes paste client) := by
  rw [PasteIo.sendInput]
  cases hcurrent : io.isCurrentWriter target permit with
  | false =>
    obtain ⟨hsame, hkept⟩ := send_same io permit bytes
    exact h.feeds_other hsame (congrArg (·.get pane) hkept) (send_queued_ne hpermit bytes)
  | true =>
    have hne := h.target_ne hcurrent hpermit
    simp only [Bool.not_true, Bool.false_eq_true, if_false]
    generalize hframed : frameInput bytes (paste.map Prod.fst) (io.found target paste client)
      (io.pasteTarget target).2 = framed
    obtain ⟨hsame, hkept⟩ := send_same io permit framed.1
    have hqueued : (io.send permit framed.1).2.queued writer = io.queued writer :=
      send_queued_ne hpermit framed.1
    cases paste with
    | none =>
      refine h.feeds_other ⟨hsame.1, hsame.2, hsame.3, hsame.4⟩ ?_ hqueued
      rw [get_remove, if_neg hne.symm, hkept]
    | some piece =>
      simp only
      split
      · refine h.feeds_other ⟨hsame.1, hsame.2, hsame.3, hsame.4⟩ ?_ hqueued
        rw [get_insert, if_neg hne.symm, hkept]
      · refine h.feeds_other ⟨hsame.1, hsame.2, hsame.3, hsame.4⟩ ?_ hqueued
        rw [get_remove, if_neg hne.symm, hkept]

theorem Lives.feeds_sendOutsidePaste_other (h : io.Lives pane writer) (target : PaneId)
    (hpermit : permit ≠ writer) (bytes : Bytes) :
    Feeds pane writer io [] (io.sendOutsidePaste target permit bytes).2 := by
  rw [PasteIo.sendOutsidePaste]
  split
  · next hcurrent =>
    rw [Bool.and_eq_true] at hcurrent
    have hne := h.target_ne hcurrent.1 hpermit
    obtain ⟨hsame, hkept⟩ := send_same io permit (pasteEnd ++ bytes)
    rw [send_removed]
    refine h.feeds_other ⟨hsame.1, hsame.2, hsame.3, hsame.4⟩ ?_ (send_queued_ne hpermit _)
    exact (get_remove ..).trans (if_neg hne.symm)
  · obtain ⟨hsame, hkept⟩ := send_same io permit bytes
    exact h.feeds_other hsame (by rw [hkept]) (send_queued_ne hpermit bytes)

theorem closePaste_same (io : PasteIo) (target : PaneId) (room : Bool) :
    SameTables io (io.closePaste target room) := by
  unfold closePaste
  split
  · exact ⟨rfl, rfl, rfl, rfl⟩
  · split
    · exact ⟨rfl, rfl, rfl, rfl⟩
    · next permit _ =>
      obtain ⟨hsame, -⟩ := send_same io permit pasteEnd
      rw [send_removed]
      exact ⟨hsame.1, hsame.2, hsame.3, hsame.4⟩

theorem Lives.feeds_closePaste_other (h : io.Lives pane writer)
    (hne : target ≠ pane) (room : Bool) :
    Feeds pane writer io [] (io.closePaste target room) ∧
      (io.closePaste target room).openPaste pane = io.openPaste pane := by
  have hkept : (io.closePaste target room).openPastes.get pane = io.openPastes.get pane ∧
      (io.closePaste target room).queued writer = io.queued writer := by
    unfold closePaste
    split
    · exact ⟨rfl, rfl⟩
    · next other hother =>
      have hpermit : other ≠ writer := fun heq => hne (h.alone target (heq ▸ hother))
      cases hreserve : io.tryReserveIn other room .urgent with
      | error e => exact ⟨rfl, rfl⟩
      | ok permit =>
        rw [tryReserveIn_eq hreserve]
        simp only [send_removed]
        exact ⟨(get_remove ..).trans (if_neg hne.symm), send_queued_ne hpermit _⟩
  have hsame := closePaste_same io target room
  exact ⟨h.feeds_other hsame hkept.1 hkept.2,
    openPaste_congr (by rw [hsame.incarnations]) (by rw [hsame.vts]) hkept.1⟩

/-- Ending the pastes of some panes, each named once. -/
theorem Lives.feeds_closePastes (h : io.Lives pane writer) (room : PaneId → Bool)
    {mine : List PaneId} (hnodup : mine.Nodup) (hopen : pane ∈ mine → (io.openPaste pane).isSome) :
    Feeds pane writer io [] (mine.foldl (fun io pane => io.closePaste pane (room pane)) io) ∧
      (pane ∈ mine → io.closed writer = false →
        (mine.foldl (fun io pane => io.closePaste pane (room pane)) io).openPaste pane = none) ∧
      (pane ∉ mine →
        (mine.foldl (fun io pane => io.closePaste pane (room pane)) io).openPaste pane =
        io.openPaste pane) := by
  induction mine generalizing io with
  | nil => exact ⟨h.feeds_other ⟨rfl, rfl, rfl, rfl⟩ rfl rfl, by simp, fun _ => rfl⟩
  | cons target rest ih =>
    rw [nodup_cons] at hnodup
    rw [foldl_cons]
    by_cases htarget : target = pane
    · subst htarget
      obtain ⟨hfeeds, hclosed⟩ := h.feeds_closePaste (hopen List.mem_cons_self) (room target)
      obtain ⟨hrest, -, hkept⟩ := ih hfeeds.lives hnodup.2 fun hmem => (hnodup.1 hmem).elim
      refine ⟨hfeeds.trans hrest, fun _ hlive => ?_, fun hout => ?_⟩
      · rw [hkept hnodup.1, hclosed hlive]
      · exact (hout mem_cons_self).elim
    · obtain ⟨hfeeds, hsame⟩ := h.feeds_closePaste_other htarget (room target)
      obtain ⟨hrest, hclosed, hkept⟩ := ih hfeeds.lives hnodup.2 fun hmem => by
        rw [hsame]
        exact hopen (mem_cons_of_mem _ hmem)
      refine ⟨hfeeds.trans hrest, fun hmem hlive => ?_, fun hout => ?_⟩
      · rw [mem_cons, or_iff_right (Ne.symm htarget)] at hmem
        exact hclosed hmem (by rw [(closePaste_same io target _).closed]; exact hlive)
      · rw [hkept fun hmem => hout (mem_cons_of_mem _ hmem), hsame]

theorem Lives.feeds_closeOpenPastes (h : io.Lives pane writer) (client : Nat)
    {listed : List PaneId} (hlisted : listed.Perm io.openPastes.keys) (room : PaneId → Bool) :
    Feeds pane writer io [] (io.closeOpenPastes client listed room) ∧
      (io.closed writer = false → ∀ record,
        (io.closeOpenPastes client listed room).openPaste pane = some record →
          record.client ≠ client) := by
  have hnodup := (hlisted.nodup_iff.2 io.openPastes.keys_nodup).filter fun pane =>
    (io.openPaste pane).any fun «open» => «open».client = client
  obtain ⟨hfeeds, hclosed, hkept⟩ := h.feeds_closePastes room hnodup fun hmem => by
    obtain ⟨record, hrecord, -⟩ := (any_eq_true _ _).1 (List.mem_filter.1 hmem).2
    rw [hrecord]
    rfl
  refine ⟨hfeeds, fun hlive record hrecord hclient => ?_⟩
  by_cases hmem : pane ∈ listed.filter fun pane =>
      (io.openPaste pane).any fun «open» => «open».client = client
  · have hnone := hclosed hmem hlive
    rw [closeOpenPastes] at hrecord
    rw [hnone] at hrecord
    cases hrecord
  · -- A paste of the client that is still open was open before, so its pane was listed.
    have hsame := hkept hmem
    rw [closeOpenPastes] at hrecord
    rw [hsame] at hrecord
    refine hmem (List.mem_filter.2 ⟨?_, ?_⟩)
    · rw [hlisted.mem_iff, mem_keys_iff]
      rw [h.openPaste, filter_eq_some_iff] at hrecord
      exact ⟨record, hrecord.1⟩
    · rw [hrecord]
      exact decide_eq_true hclient

variable [Pty.Transcript]

/-- A call under the lock with the inputs it queued to a pane's writer, or a change elsewhere.
A permit for the writer of the pane was asked for through that pane. -/
inductive Step (pane : PaneId) (writer : Handle) : PasteIo → List Input → PasteIo → Prop
  | sendInput (io : PasteIo) (target : PaneId) (permit : Handle) (bytes : Bytes)
      (paste : Option (Bool × Nat)) (client : Nat) (hpermit : permit = writer → target = pane) :
      Step pane writer io
        (if permit = writer ∧ io.closed permit = false then [.of bytes paste client] else [])
        (io.sendInput target permit bytes paste client)
  | sendOutsidePaste (io : PasteIo) (target : PaneId) (permit : Handle) (bytes : Bytes)
      (hpermit : permit = writer → target = pane) :
      Step pane writer io
        (if permit = writer ∧ (io.sendOutsidePaste target permit bytes).1 then [.plain bytes]
          else [])
        (io.sendOutsidePaste target permit bytes).2
  | trySendOutsidePaste (io : PasteIo) (target : PaneId) (bytes : Bytes) (room : Bool)
      (lane : Lane) :
      Step pane writer io
        (if target = pane ∧ (io.trySendOutsidePaste target bytes room lane).1 = some (.ok ())
          then [.plain bytes] else [])
        (io.trySendOutsidePaste target bytes room lane).2
  | startCommand (io : PasteIo) (target : PaneId) (permit : Handle) (prepared : Pty.PreparedCommand)
      (now timeout elapsed : Nat) (completionTx : Bool)
        (hpermit : permit = writer → target = pane) :
      Step pane writer io
        (if permit = writer ∧ (io.startCommand target permit prepared now timeout elapsed
            completionTx).1 = .started prepared.id then [.plain (utf8 prepared.line)] else [])
        (io.startCommand target permit prepared now timeout elapsed completionTx).2
  | closeOpenPastes (io : PasteIo) (client : Nat) (listed : List PaneId) (room : PaneId → Bool)
      (hlisted : listed.Perm io.openPastes.keys) :
      Step pane writer io [] (io.closeOpenPastes client listed room)
  | elsewhere {io io' : PasteIo} (h : Elsewhere pane writer io io') : Step pane writer io [] io'

/-- A run of calls with the inputs it queued, in order. -/
inductive Run (pane : PaneId) (writer : Handle) : PasteIo → List Input → PasteIo → Prop
  | refl (io : PasteIo) : Run pane writer io [] io
  | tail {io io' io'' : PasteIo} {arrived more : List Input} (hrun : Run pane writer io arrived io')
      (hstep : Step pane writer io' more io'') : Run pane writer io (arrived ++ more) io''

section

omit [Pty.Transcript]

theorem sendOutsidePaste_fst (io : PasteIo) (target : PaneId) (permit : Handle) (bytes : Bytes) :
    (io.sendOutsidePaste target permit bytes).1 = !io.closed permit := by
  unfold sendOutsidePaste send
  split <;> split <;> simp_all

/-- Sending outside a paste, for any pane. -/
theorem Lives.feeds_outside (h : io.Lives pane writer) (target : PaneId) (permit : Handle)
    (hpermit : permit = writer → target = pane) (bytes : Bytes) :
    Feeds pane writer io
      (if permit = writer ∧ (io.sendOutsidePaste target permit bytes).1 then [.plain bytes] else [])
      (io.sendOutsidePaste target permit bytes).2 := by
  rw [sendOutsidePaste_fst]
  by_cases hwriter : permit = writer
  · obtain rfl := hpermit hwriter
    subst hwriter
    simpa using h.feeds_sendOutsidePaste bytes
  · simpa [hwriter] using h.feeds_sendOutsidePaste_other target hwriter bytes

theorem Lives.feeds_engine (h : io.Lives pane writer) (engine : Pty.CommandEngine) :
    Feeds pane writer io [] { io with cmdEngine := engine } :=
  h.feeds_other ⟨rfl, rfl, rfl, rfl⟩ rfl rfl

end

/-- What becomes of a command whose line was sent. When the task stopped reading nothing arrived,
and the command is forgotten. -/
theorem Feeds.of_sent {now : Nat} {id : Uuid} {line : Str} {sent : Bool × PasteIo}
    (h : Feeds pane writer io
      (if permit = writer ∧ sent.1 then [.plain (utf8 line)] else []) sent.2) :
    Feeds pane writer io
      (if permit = writer ∧ (match sent with
          | (true, io) => (CommandStart.started id, io)
          | (false, io) =>
            (.paneGone, { io with cmdEngine := io.cmdEngine.forgetPane now target.uuid })).1 =
          .started id then [.plain (utf8 line)] else [])
      (match sent with
        | (true, io) => (CommandStart.started id, io)
        | (false, io) =>
          (.paneGone, { io with cmdEngine := io.cmdEngine.forgetPane now target.uuid })).2 := by
  obtain ⟨_ | _, after⟩ := sent
  · have hlast := h.trans (h.lives.feeds_engine (after.cmdEngine.forgetPane now target.uuid))
    simpa using hlast
  · simpa using h

theorem Lives.feeds_startCommand (h : io.Lives pane writer) (target : PaneId) (permit : Handle)
    (prepared : Pty.PreparedCommand) (now timeout elapsed : Nat) (completionTx : Bool)
    (hpermit : permit = writer → target = pane) :
    Feeds pane writer io
      (if permit = writer ∧ (io.startCommand target permit prepared now timeout elapsed
          completionTx).1 = .started prepared.id then [.plain (utf8 prepared.line)] else [])
      (io.startCommand target permit prepared now timeout elapsed completionTx).2 := by
  unfold startCommand
  cases hcurrent : io.isCurrentWriter target permit with
  | false => simpa using h.feeds_engine io.cmdEngine
  | true =>
    simp only [Bool.not_true, Bool.false_eq_true, if_false]
    unfold Pty.CommandEngine.register
    cases io.cmdEngine.active.get target.uuid with
    | some running => simpa using h.feeds_engine io.cmdEngine
    | none =>
      simp only
      generalize hengine : ({ io.cmdEngine with
        commands := _, active := _ } : Pty.CommandEngine) = engine
      have hfirst := h.feeds_engine engine
      have hsent := hfirst.lives.feeds_outside target permit hpermit (utf8 prepared.line)
      have hboth := hfirst.trans hsent
      refine Feeds.of_sent ?_
      simpa using hboth

section

omit [Pty.Transcript]

theorem trySendOutsidePaste_eq {room : Bool} {lane : Lane}
    (hwriter : io.writers.get target = some permit)
    (hreserve : io.tryReserveIn permit room lane = .ok permit) (bytes : Bytes) :
    io.trySendOutsidePaste target bytes room lane =
      (some (if (io.sendOutsidePaste target permit bytes).1 then .ok () else .error .closed),
        (io.sendOutsidePaste target permit bytes).2) := by
  simp only [trySendOutsidePaste, hwriter, hreserve]
  generalize io.sendOutsidePaste target permit bytes = sent
  obtain ⟨_ | _, after⟩ := sent <;> rfl

theorem Lives.feeds_trySend (h : io.Lives pane writer) (target : PaneId) (bytes : Bytes)
    (room : Bool) (lane : Lane) :
    Feeds pane writer io
      (if target = pane ∧ (io.trySendOutsidePaste target bytes room lane).1 = some (.ok ())
        then [.plain bytes] else [])
      (io.trySendOutsidePaste target bytes room lane).2 := by
  have hkept := h.feeds_engine io.cmdEngine
  cases hwriter : io.writers.get target with
  | none =>
    have heq : io.trySendOutsidePaste target bytes room lane = (none, io) := by
      simp only [trySendOutsidePaste, hwriter]
    rw [heq]
    simpa using hkept
  | some other =>
    cases hreserve : io.tryReserveIn other room lane with
    | error e =>
      have heq : io.trySendOutsidePaste target bytes room lane = (some (.error e), io) := by
        simp only [trySendOutsidePaste, hwriter, hreserve]
      rw [heq]
      simpa using hkept
    | ok permit =>
      obtain rfl := tryReserveIn_eq hreserve
      have hiff : permit = writer ↔ target = pane := by
        constructor
        · rintro rfl
          exact h.alone target hwriter
        · rintro rfl
          rw [h.current, some_inj] at hwriter
          exact hwriter.symm
      have hsent := h.feeds_outside target permit hiff.1 bytes
      rw [trySendOutsidePaste_eq hwriter hreserve]
      cases hok : (io.sendOutsidePaste target permit bytes).1 <;> simpa [hok, hiff] using hsent

end

/-- Every step feeds the pane with what arrived. -/
theorem Step.feeds (h : io.Lives pane writer)
    (hstep : Step pane writer io arrived io') : Feeds pane writer io arrived io' := by
  cases hstep with
  | sendInput target permit bytes paste client hpermit =>
    by_cases hwriter : permit = writer
    · obtain rfl := hpermit hwriter
      subst hwriter
      simpa using h.feeds_sendInput bytes paste client
    · simpa [hwriter] using h.feeds_sendInput_other target hwriter bytes paste client
  | sendOutsidePaste target permit bytes hpermit =>
    exact h.feeds_outside target permit hpermit bytes
  | trySendOutsidePaste target bytes room lane => exact h.feeds_trySend target bytes room lane
  | startCommand target permit prepared now timeout elapsed completionTx hpermit =>
    exact h.feeds_startCommand target permit prepared now timeout elapsed completionTx hpermit
  | closeOpenPastes client listed room hlisted =>
    exact (h.feeds_closeOpenPastes client hlisted room).1
  | elsewhere helse => exact h.feeds_elsewhere helse

theorem Run.feeds (h : io.Lives pane writer)
    (hrun : Run pane writer io arrived io') : Feeds pane writer io arrived io' := by
  induction hrun with
  | refl => exact h.feeds_other ⟨rfl, rfl, rfl, rfl⟩ rfl rfl
  | tail _ hstep ih => exact ih.trans (hstep.feeds ih.lives)

/-- Other input whose stretches between pieces of pastes spell no marker. -/
def PlainClear (arrived : List Input) : Prop :=
  ∀ (front : List Input) (texts : List Bytes) (back : List Input),
    arrived = front ++ texts.map .plain ++ back → markers.Clear texts.flatten

section

omit [Pty.Transcript]

theorem inputs_outside (texts : List Bytes) : inputs (texts.map .outside) = texts.map .plain := by
  induction texts with
  | nil => rfl
  | cons text rest ih => exact congrArg (.plain text :: ·) ih

theorem PlainClear.outside {items : List Stretch} (h : PlainClear (inputs items)) :
    Brackets.ClearOutside markers items := by
  intro front texts back heq
  refine h (inputs front) texts (inputs back) ?_
  rw [heq, inputs_append, inputs_append, inputs_outside]

/-- Input without ESC spells no marker. -/
theorem PlainClear.of_no_esc
    (h : ∀ bytes, .plain bytes ∈ arrived → esc ∉ bytes) : PlainClear arrived := by
  intro front texts back heq
  have hfree : markers.esc ∉ texts.flatten := by
    intro hmem
    obtain ⟨text, htext, hesc⟩ := List.mem_flatten.1 hmem
    refine h text ?_ hesc
    rw [heq]
    exact mem_append_left _ (mem_append_right _ (mem_map_of_mem htext))
  exact ⟨fun hinf => hfree (hinf.subset mem_cons_self),
    fun hinf => hfree (hinf.subset mem_cons_self)⟩

end

/-- Pastes of several clients do not mix. What is queued to a pane's writer, from when its program
started in bracketed paste mode, is a stream of items that take turns: a start marker, pieces of
one paste of one client with ESC removed, its end marker, other input. The items are the inputs in
the order they arrived, a reader finds their markers and no others, and the record knows the paste
that is open. Once a client's pastes are ended it has none open. -/
theorem run_pastes {io₀ : PasteIo} {arrived : List Input} (hlives : io₀.Lives pane writer)
    (hqueued : io₀.queued writer = []) (hnone : io₀.openPaste pane = none)
    (hrun : Run pane writer io₀ arrived io) (hclear : PlainClear arrived) :
    Brackets.Alternate false (markers.scan (io.queued writer)) ∧
      (∃ items state, io.queued writer = render markers items ∧
        markers.scan (io.queued writer) = items.flatMap (Brackets.Item.tokens markers) ∧
        inputs items = arrived ∧ Brackets.Turns none items state ∧
        (io.closed writer = false → state = io.owner pane)) ∧
      ∀ client listed room, listed.Perm io.openPastes.keys → io.closed writer = false →
        ∀ record, (io.closeOpenPastes client listed room).openPaste pane = some record →
          record.client ≠ client := by
  have hfeeds := hrun.feeds hlives
  have howner : io₀.owner pane = none := by
    rw [owner, hnone]
    rfl
  have hitems : ∃ items state, io.queued writer = render markers items ∧
      inputs items = arrived ∧ Brackets.Turns none items state ∧
        (io.closed writer = false → state = io.owner pane) := by
    cases hclosed : io₀.closed writer with
    | true =>
      obtain ⟨hclosed', hsame, harrived⟩ := hfeeds.shut hclosed
      refine ⟨[], none, by rw [hsame, hqueued]; rfl, harrived.symm, .nil none, fun hopen => ?_⟩
      rw [hclosed'] at hopen
      cases hopen
    | false =>
      obtain ⟨items, state, hsent, hinputs, hturns, hstate⟩ := hfeeds.feed hclosed
      rw [hqueued, nil_append] at hsent
      rw [howner] at hturns
      exact ⟨items, state, hsent, hinputs, hturns, hstate⟩
  obtain ⟨items, state, hsent, hinputs, hturns, hstate⟩ := hitems
  have hscan : markers.scan (io.queued writer) = items.flatMap (Brackets.Item.tokens markers) := by
    rw [hsent]
    exact hturns.scan (PlainClear.outside (hinputs.symm ▸ hclear))
  refine ⟨?_, ⟨items, state, hsent, hscan, hinputs, hturns, hstate⟩, ?_⟩
  · rw [hscan]
    exact hturns.alternate markers
  · intro client listed room hlisted hopen
    exact (hfeeds.lives.feeds_closeOpenPastes client hlisted room).2 hopen

end PasteIo

namespace PasteIo.Sample

scoped instance transcript : Pty.Transcript := ⟨fun bytes => bytes.map fun b => Char.ofNat b.toNat⟩

def pane : PaneId := ⟨⟨1⟩⟩

/-- A pane whose program asked for bracketed paste. -/
def io : PasteIo where
  writers := (∅ : FinMap PaneId Handle).insert pane 7
  incarnations := (∅ : FinMap PaneId Nat).insert pane 3
  vts := (∅ : FinMap PaneId Bool).insert pane true
  cmdEngine := .new
  openPastes := ∅
  queued := fun _ => []
  closed := fun _ => false

theorem io_lives : io.Lives pane 7 where
  current := by decide
  alone := by
    intro other hother
    rw [io, get_insert] at hother
    split at hother
    · next h => exact h
    · cases hother
  wants := by decide

/-- Another client types between two pieces of a paste, and the first one goes away. -/
def after : PasteIo :=
  ((((io.sendInput pane 7 [0x61] (some (true, 5)) 1).sendInput pane 7 [0x6b] none 2).sendInput
    pane 7 [0x62] (some (true, 5)) 1).closeOpenPastes 1 [pane] fun _ => true)

def arrived : List Input := [.piece 1 5 [0x61], .plain [0x6b], .piece 1 5 [0x62]]

theorem run_after : Run pane 7 io arrived after := by
  have hfirst : Run pane 7 io _ _ := Run.tail (.refl io)
    (.sendInput io pane 7 [0x61] (some (true, 5)) 1 fun _ => rfl)
  have hkey := hfirst.tail (.sendInput _ pane 7 [0x6b] none 2 fun _ => rfl)
  have hsecond := hkey.tail (.sendInput _ pane 7 [0x62] (some (true, 5)) 1 fun _ => rfl)
  exact hsecond.tail (.closeOpenPastes _ 1 [pane] (fun _ => true) (by decide))

theorem after_pastes :
    Brackets.Alternate false (markers.scan (after.queued 7)) ∧
      ∀ record, (after.closeOpenPastes 1 [] fun _ => true).openPaste pane = some record →
        record.client ≠ 1 := by
  have hclear : PlainClear arrived := .of_no_esc (by simp [arrived, esc])
  have hpastes := run_pastes io_lives rfl rfl run_after hclear
  exact ⟨hpastes.1, hpastes.2.2 1 [] (fun _ => true) (by decide) (by decide)⟩

end PasteIo.Sample

end Shux.Io
