/-
# Bracketed pastes

An attach client sends a long paste in pieces, and other input may reach the pane between two of
them: keys of other clients, mouse reports, command lines. The pane's table of open pastes says
which paste the program is in. Everything that sends to a pane goes through that record under one
lock: the next piece of the open paste continues it, anything else ends it first.

The room for input in a channel is a parameter of the calls that ask for it without waiting.
-/

import Shux.Io.PaneIo

namespace Shux.Io

abbrev Bytes := List UInt8

/-- A bracketed paste whose end has not reached the pane's program. -/
structure OpenPaste where
  program : Nat
  client : Nat
  paste : Nat
  deriving DecidableEq

def esc : UInt8 := 0x1b
/-- `ESC [ 200 ~` -/
def pasteStart : Bytes := [0x1b, 0x5b, 0x32, 0x30, 0x30, 0x7e]
/-- `ESC [ 201 ~` -/
def pasteEnd : Bytes := [0x1b, 0x5b, 0x32, 0x30, 0x31, 0x7e]

/-- The tables that sending to panes uses, and what is queued in each channel. -/
structure PasteIo where
  writers : FinMap PaneId Handle
  incarnations : FinMap PaneId Nat
  /-- Whether a pane's terminal is in bracketed paste mode. -/
  vts : FinMap PaneId Bool
  cmdEngine : Pty.CommandEngine
  openPastes : FinMap PaneId OpenPaste
  queued : Handle → Bytes
  /-- Channels whose PTY task has stopped taking input. -/
  closed : Handle → Bool

/-- Where a try-send looks for room once the main budget has none. -/
inductive Lane where
  | main
  | control
  | urgent
  deriving DecidableEq

inductive TrySendError where
  | full
  | closed
  deriving DecidableEq

namespace PasteIo

/-- Queue bytes; `false` when the pane is gone and they were dropped. -/
def send (io : PasteIo) (permit : Handle) (bytes : Bytes) : Bool × PasteIo :=
  if io.closed permit then (false, io)
  else (true, { io with queued := Function.update io.queued permit (io.queued permit ++ bytes) })

/-- Room for a chunk, without waiting. Urgent input needs none. -/
def tryReserveIn (io : PasteIo) (writer : Handle) (room : Bool) (lane : Lane) :
    Except TrySendError Handle :=
  if io.closed writer then .error .closed
  else if room ∨ lane = .urgent then .ok writer
  else .error .full

/-- The PTY task that owns a pane now, and whether its program asked for bracketed paste. -/
def pasteTarget (io : PasteIo) (pane : PaneId) : Nat × Bool :=
  ((io.incarnations.get pane).getD 0, (io.vts.get pane).getD false)

/-- The paste open in the program running in a pane now, if that program is still in paste
mode. -/
def openPaste (io : PasteIo) (pane : PaneId) : Option OpenPaste :=
  let (program, wants) := io.pasteTarget pane
  (io.openPastes.get pane).filter fun «open» => wants && decide («open».program = program)

/-- Whether a permit is room in the writer a pane has now. -/
def isCurrentWriter (io : PasteIo) (pane : PaneId) (permit : Handle) : Bool :=
  decide (io.writers.get pane = some permit)

/-- Send through a permit, ending an open paste first. -/
def sendOutsidePaste (io : PasteIo) (pane : PaneId) (permit : Handle) (bytes : Bytes) :
    Bool × PasteIo :=
  if io.isCurrentWriter pane permit && (io.openPaste pane).isSome then
    { io with openPastes := io.openPastes.remove pane }.send permit (pasteEnd ++ bytes)
  else io.send permit bytes

/-- The same without waiting for room. `none` when the pane has no writer. -/
def trySendOutsidePaste (io : PasteIo) (pane : PaneId) (bytes : Bytes) (room : Bool)
    (lane : Lane) : Option (Except TrySendError Unit) × PasteIo :=
  match io.writers.get pane with
  | none => (none, io)
  | some writer =>
    match io.tryReserveIn writer room lane with
    | .error e => (some (.error e), io)
    | .ok permit =>
      match io.sendOutsidePaste pane permit bytes with
      | (true, io) => (some (.ok ()), io)
      | (false, io) => (some (.error .closed), io)

inductive CommandStart where
  | started (id : Uuid)
  | busy (id : Uuid) (state : Str)
  | paneGone
  deriving DecidableEq

/-- `String::into_bytes`. -/
def utf8 (text : Str) : Bytes := text.flatMap String.utf8EncodeChar

variable [Pty.Transcript]

/-- Track a prepared command as a pane's running one and queue its line. -/
def startCommand (io : PasteIo) (pane : PaneId) (permit : Handle) (prepared : Pty.PreparedCommand)
    (now timeout elapsed : Nat) (completionTx : Bool) : CommandStart × PasteIo :=
  if !io.isCurrentWriter pane permit then (.paneGone, io)
  else
    let (engine, registered) :=
      io.cmdEngine.register now pane.uuid prepared (timeout - elapsed) completionTx
    let io := { io with cmdEngine := engine }
    match registered with
    | .error running =>
      let state := (engine.getStatus now running).map (·.state)
      (.busy running (state.getD "running".toList), io)
    | .ok (id, text) =>
      match io.sendOutsidePaste pane permit (utf8 text) with
      | (true, io) => (.started id, io)
      | (false, io) => (.paneGone, { io with cmdEngine := io.cmdEngine.forgetPane now pane.uuid })

end PasteIo

/-- A pane's open paste, as one piece of input sees it. -/
inductive Open where
  | closed
  /-- Open, and not the paste this piece belongs to. -/
  | other
  /-- Open, and this piece is its next. -/
  | continued
  deriving DecidableEq

/-- Input as the pane should receive it, and whether a bracketed paste is open once it has.
`paste` is `some more` for a piece of a paste. -/
def frameInput (bytes : Bytes) (paste : Option Bool) («open» : Open) (wantsBrackets : Bool) :
    Bytes × Bool :=
  let continues := decide («open» = .continued)
  let out := if decide («open» ≠ .closed) && !continues then pasteEnd else []
  match paste.filter fun _ => continues || wantsBrackets with
  | none => (out ++ bytes, false)
  | some more =>
    let out := if !continues then out ++ pasteStart else out
    let out := out ++ bytes.filter fun b => decide (b ≠ esc)
    (if !more then out ++ pasteEnd else out, more)

namespace PasteIo

/-- What a piece of input finds open in a pane. The next piece of a paste continues it whatever
mode the program shows now; anything else ends it only for a program still in paste mode. -/
def found (io : PasteIo) (pane : PaneId) (paste : Option (Bool × Nat)) (client : Nat) : Open :=
  let (program, _) := io.pasteTarget pane
  let continued := (io.openPastes.get pane).any fun «open» =>
    decide («open».program = program) &&
      paste.any fun piece => decide ((«open».client, «open».paste) = (client, piece.2))
  if continued then .continued
  else match io.openPaste pane with
    | none => .closed
    | some _ => .other

/-- Frame input against the pane's paste, send it through a permit and record the paste it
leaves open. `paste` names the paste a piece belongs to. -/
def sendInput (io : PasteIo) (pane : PaneId) (permit : Handle) (bytes : Bytes)
    (paste : Option (Bool × Nat)) (client : Nat) : PasteIo :=
  if !io.isCurrentWriter pane permit then (io.send permit bytes).2
  else
    let (program, wantsBrackets) := io.pasteTarget pane
    let (bytes, openAfter) :=
      frameInput bytes (paste.map Prod.fst) (io.found pane paste client) wantsBrackets
    let io := (io.send permit bytes).2
    match paste with
    | some (_, paste) =>
      if openAfter then
        { io with openPastes := io.openPastes.insert pane ⟨program, client, paste⟩ }
      else { io with openPastes := io.openPastes.remove pane }
    | none => { io with openPastes := io.openPastes.remove pane }

/-- End a pane's open paste, as `closeOpenPastes` does it. -/
def closePaste (io : PasteIo) (pane : PaneId) (room : Bool) : PasteIo :=
  match io.writers.get pane with
  | none => io
  | some writer =>
    match io.tryReserveIn writer room .urgent with
    | .error _ => io
    | .ok permit => ({ io with openPastes := io.openPastes.remove pane }.send permit pasteEnd).2

/-- End every paste a client left open, in the order the table lists them. -/
def closeOpenPastes (io : PasteIo) (client : Nat) (listed : List PaneId) (room : PaneId → Bool) :
    PasteIo :=
  let mine := listed.filter fun pane => (io.openPaste pane).any fun «open» => «open».client = client
  mine.foldl (fun io pane => io.closePaste pane (room pane)) io

end PasteIo

end Shux.Io
