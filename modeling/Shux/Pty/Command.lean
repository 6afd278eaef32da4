/-
# Commands in a live shell

A command is typed into a pane's shell between two markers that the shell prints, and the
engine reads the pane's output for them: nothing before the BEGIN line is the command's, and
everything from there to the END marker is.

A pane has one command at a time. A command that times out is answered, but keeps its pane,
since its program may still be reading there.

Instants are in nanoseconds. A caller may wait for its command on a channel of its own; what
was sent on these channels is listed in the engine, and each result names its command.
-/

import Shux.Lib.Search
import Shux.Core.IdRef

namespace Shux.Pty

open Search

/-- How captured bytes read: decoded, without escape sequences, with plain line ends. -/
class Transcript where
  render : List UInt8 → Str

/-- The bytes of a text of ASCII characters. -/
def asciiBytes (text : Str) : List UInt8 := text.map fun c => UInt8.ofNat c.toNat

/-- Payload bytes kept per command. -/
def captureLimit : Nat := 2 ^ 20

/-- Finished commands whose results stay queryable. -/
def keepFinished : Nat := 64

/-- Quote one argument for a shell, unless all of it is literal as it is. -/
def shellQuoteArg (arg : Str) : Str :=
  let quoted := '\'' :: arg.flatMap (fun c => if c = '\'' then "'\\''".toList else [c]) ++ ['\'']
  let literal (c : Char) : Bool := c.isAlphanum || "_-./,:=+@%".toList.contains c
  if arg.isEmpty then "''".toList
  else if arg.head? = some '=' then quoted
  else if arg.all literal then arg
  else quoted

/-- Quote a list of arguments into one line. -/
def shellEscapeArgs (args : List Str) : Str := [' '].intercalate (args.map shellQuoteArg)

/-- The text that marks a command's own lines. -/
def markerOf (id : Uuid) : Str := "__SHUX_CMD_".toList ++ id.simple ++ "__".toList

/-- A command framed for a pane but not yet tracked. -/
structure PreparedCommand where
  id : Uuid
  command : Str
  marker : Str
  line : Str
  marker_eq : marker = markerOf id

/-- Frame a command: its text and the line to type. -/
def prepare (id : Uuid) (command : Str) (args : List Str) : PreparedCommand :=
  let marker := markerOf id
  let command := if args.isEmpty then command else command ++ ' ' :: shellEscapeArgs args
  { id := id
    command := command
    marker := marker
    line := "__shux_ec=$?; command -p printf 'SHUX_BE''GIN%s\\n' ".toList ++ marker ++
      "; (exit \"$__shux_ec\") && :; ".toList ++ command ++ "; __shux_ec=$?; ".toList ++
      "command -p printf 'SHUX_MAR''KER%sEXIT%sSHUX_END\\n' ".toList ++ marker ++
      " \"$__shux_ec\"; eval \"unset __shux_ec; (exit $__shux_ec)\" && :\n".toList
    marker_eq := rfl }

inductive CommandState where
  | running
  | completed
  | timedOut
  | cancelled
  /-- The pane's program ended or the pane was torn down first. -/
  | paneGone
deriving DecidableEq

def CommandState.asStr : CommandState → Str
  | running => "running".toList
  | completed => "completed".toList
  | timedOut => "timed_out".toList
  | cancelled => "cancelled".toList
  | paneGone => "pane_gone".toList

structure CommandResult where
  commandId : Uuid
  state : Str
  exitCode : Option Nat
  stdout : Str
  truncated : Bool
  runtimeMs : Nat
deriving DecidableEq

structure TrackedCommand where
  id : Uuid
  paneId : Uuid
  command : Str
  marker : Str
  startedAt : Nat
  timeout : Nat
  state : CommandState
  /-- Whether the caller's channel is there to be sent the result. -/
  completionTx : Bool
  begun : Bool
  capture : List UInt8
  truncated : Bool
  result : Option CommandResult
deriving DecidableEq

/-- A prepared command, running in a pane from now on. -/
def PreparedCommand.track (prepared : PreparedCommand) (now : Nat) (paneId : Uuid) (timeout : Nat)
    (completionTx : Bool) : TrackedCommand where
  id := prepared.id
  paneId := paneId
  command := prepared.command
  marker := prepared.marker
  startedAt := now
  timeout := timeout
  state := .running
  completionTx := completionTx
  begun := false
  capture := []
  truncated := false
  result := none

def runtimeMs (startedAt now : Nat) : Nat := (now - startedAt) / 10 ^ 6 % 2 ^ 64

/-- What follows an END prefix. -/
inductive EndMarker where
  /-- More bytes are needed to tell. -/
  | incomplete
  /-- Not the END marker after all. -/
  | not
  | exit (code : Nat)
deriving DecidableEq

def isAsciiDigit (b : UInt8) : Bool := 48 ≤ b.toNat && b.toNat ≤ 57

def endSuffix : List UInt8 := asciiBytes "SHUX_END".toList

/-- The number some digits spell. -/
def codeOf (digits : List UInt8) : Nat := digits.foldl (fun n b => n * 10 + (b.toNat - 48)) 0

/-- Classify what follows an END prefix: one to three digits, and the suffix. -/
def endMarker (rest : List UInt8) : EndMarker :=
  let digits := rest.takeWhile isAsciiDigit
  let tail := rest.dropWhile isAsciiDigit
  if 3 < digits.length then .not
  else if tail.length < endSuffix.length then
    -- Still arriving: digits so far, then the start of the suffix.
    if tail.isEmpty || (!digits.isEmpty && tail.isPrefixOf endSuffix) then .incomplete else .not
  else if digits.isEmpty || !endSuffix.isPrefixOf tail then .not
  else .exit (codeOf digits)

namespace TrackedCommand

variable (cmd : TrackedCommand)

def beginText : List UInt8 := asciiBytes ("SHUX_BEGIN".toList ++ cmd.marker)

def endText : List UInt8 := asciiBytes ("SHUX_MARKER".toList ++ cmd.marker ++ "EXIT".toList)

/-- Keep payload bytes up to the limit, and note any dropped. -/
def keep (payload : List UInt8) : TrackedCommand :=
  if cmd.result.isSome then cmd
  else
    let room := captureLimit - cmd.capture.length
    { cmd with
      truncated := cmd.truncated || decide (room < payload.length)
      capture := cmd.capture ++ payload.take room }

/-- What the output so far says about the BEGIN line. -/
inductive BeginScan where
  /-- Not seen whole; these bytes are held. -/
  | waiting (held : List UInt8)
  /-- Seen; these bytes follow it. -/
  | begun (rest : List UInt8)

def scanBegin (buf : List UInt8) : BeginScan :=
  if cmd.begun then .begun buf
  else
    match find buf cmd.beginText with
    | none =>
      -- Only what could be the start of a split marker is kept.
      .waiting (buf.drop (buf.length - min buf.length (cmd.beginText.length - 1)))
    | some start =>
      match (buf.drop (start + cmd.beginText.length)).findIdx? (· == 10) with
      | none => .waiting (buf.drop start)
      | some nl => .begun (buf.drop (start + cmd.beginText.length + nl + 1))

/-- What the output so far says about the END marker. -/
inductive EndScan where
  /-- Not seen whole; these bytes are held. -/
  | more (cmd : TrackedCommand) (held : List UInt8)
  | exit (cmd : TrackedCommand) (code : Nat)

theorem endText_ne_nil : cmd.endText ≠ [] := by
  unfold endText asciiBytes
  rw [List.append_assoc, List.map_append]
  exact List.append_ne_nil_of_left_ne_nil (by decide) _

def scanEnd (cmd : TrackedCommand) (buf : List UInt8) : EndScan :=
  match _hfind : find buf cmd.endText with
  | none =>
    let take := buf.length - min buf.length (cmd.endText.length - 1)
    .more (cmd.keep (buf.take take)) (buf.drop take)
  | some start =>
    match endMarker (buf.drop (start + cmd.endText.length)) with
    | .incomplete => .more (cmd.keep (buf.take start)) (buf.drop start)
    | .not =>
      -- Marker-shaped bytes the command wrote itself.
      scanEnd (cmd.keep (buf.take (start + cmd.endText.length)))
        (buf.drop (start + cmd.endText.length))
    | .exit code => .exit (cmd.keep (buf.take start)) code
termination_by buf.length
decreasing_by
  have hle := (find_eq_some _hfind).1.le_length cmd.endText_ne_nil
  have hpos := List.length_pos_iff.mpr cmd.endText_ne_nil
  rw [List.length_drop]
  omega

end TrackedCommand

structure CommandEngine where
  commands : FinMap Uuid TrackedCommand
  /-- Each pane's one running command. -/
  active : FinMap Uuid Uuid
  /-- Each pane's bytes not yet classified. -/
  pending : FinMap Uuid (List UInt8)
  finished : List Uuid
  /-- What callers were sent. -/
  sent : List CommandResult

/-- The order in which a map lists some of its entries. -/
structure Listing where
  order : List Uuid → List Uuid
  perm : ∀ ids, (order ids).Perm ids

namespace CommandEngine

def new : CommandEngine := ⟨∅, ∅, ∅, [], []⟩

/-- Track a prepared command as the one running in a pane, unless another one is. -/
def register (e : CommandEngine) (now : Nat) (paneId : Uuid) (prepared : PreparedCommand)
    (timeout : Nat) (completionTx : Bool) : CommandEngine × Except Uuid (Uuid × Str) :=
  match e.active.get paneId with
  | some running => (e, .error running)
  | none =>
    ({ e with
        commands := e.commands.insert prepared.id
          (prepared.track now paneId timeout completionTx)
        active := e.active.insert paneId prepared.id },
      .ok (prepared.id, prepared.line))

variable [Transcript]

/-- Finish a running command: freeze its result and answer its waiter. -/
def finish (e : CommandEngine) (now : Nat) (id : Uuid) (state : CommandState)
    (exitCode : Option Nat) : CommandEngine × Option CommandResult :=
  match e.commands.get id with
  | none => (e, none)
  | some cmd =>
    if cmd.state ≠ .running then (e, none)
    else
      let held := (e.pending.get cmd.paneId).getD []
      -- Ended some other way than by its END marker: what was held back was its output, up to
      -- any END marker already begun.
      let cmd :=
        if state ≠ .completed ∧ cmd.begun = true then
          cmd.keep (held.take ((find held cmd.endText).getD held.length))
        else cmd
      let result : CommandResult :=
        { commandId := id
          state := state.asStr
          exitCode := exitCode
          stdout := Transcript.render cmd.capture
          truncated := cmd.truncated
          runtimeMs := runtimeMs cmd.startedAt now }
      ({ e with
          commands := e.commands.insert id
            { cmd with state := state, capture := [], result := some result, completionTx := false }
          sent := if cmd.completionTx then e.sent ++ [result] else e.sent },
        some result)

section

omit [Transcript]

/-- Let the oldest finished results go. -/
def evict (e : CommandEngine) : CommandEngine :=
  let excess := e.finished.length - keepFinished
  { e with
    commands := e.commands.removeAll (e.finished.take excess)
    finished := e.finished.drop excess }

/-- Free the pane a command holds. -/
def release (e : CommandEngine) (id : Uuid) : CommandEngine :=
  match e.commands.get id with
  | none => e
  | some cmd =>
    if e.active.get cmd.paneId ≠ some id then e
    else
      evict { e with
        active := e.active.remove cmd.paneId
        pending := e.pending.remove cmd.paneId
        finished := e.finished ++ [id] }

end

/-- Feed a pane's output. Returns the command it completed, if any. -/
def processOutput (e : CommandEngine) (now : Nat) (paneId : Uuid) (output : List UInt8) :
    CommandEngine × List CommandResult :=
  match e.active.get paneId with
  | none => (e, [])
  | some id =>
    let buf := (e.pending.get paneId).getD [] ++ output
    let e := { e with pending := e.pending.remove paneId }
    match e.commands.get id with
    | none => (e, [])
    | some cmd =>
      match cmd.scanBegin buf with
      | .waiting held => ({ e with pending := e.pending.insert paneId held }, [])
      | .begun rest =>
        match TrackedCommand.scanEnd { cmd with begun := true } rest with
        | .more cmd held =>
          ({ e with
              commands := e.commands.insert id cmd
              pending := e.pending.insert paneId held }, [])
        | .exit cmd code =>
          let (e, result) := finish { e with commands := e.commands.insert id cmd } now id
            .completed (some code)
          (e.release id, result.toList)

omit [Transcript] in
/-- The commands that have run out of time. -/
def due (e : CommandEngine) (now : Nat) : List Uuid :=
  (e.commands.values.filter fun cmd =>
    cmd.state = .running ∧ cmd.timeout ≤ now - cmd.startedAt).map TrackedCommand.id

/-- Time out one command. -/
def timeOut (e : CommandEngine) (now : Nat) (id : Uuid) :
    CommandEngine × Option (Uuid × CommandResult) :=
  match e.commands.get id with
  | none => (e, none)
  | some cmd =>
    let (e, result) := e.finish now id .timedOut none
    (e, result.map fun result => (cmd.paneId, result))

/-- Time out the commands that are due, in the order the map lists them. -/
def checkTimeouts (e : CommandEngine) (now : Nat) (listing : Listing) :
    CommandEngine × List (Uuid × CommandResult) :=
  (listing.order (e.due now)).foldl (fun (e, results) id =>
    let (e, result) := e.timeOut now id
    (e, results ++ result.toList)) (e, [])

/-- Cancel the command holding its pane. Returns the pane if it held one. -/
def cancelCommand (e : CommandEngine) (now : Nat) (commandId : Uuid) :
    CommandEngine × Option Uuid :=
  match e.commands.get commandId with
  | none => (e, none)
  | some cmd =>
    if e.active.get cmd.paneId ≠ some commandId then (e, none)
    else ((e.finish now commandId .cancelled none).1.release commandId, some cmd.paneId)

/-- The pane is gone: finish its command. -/
def forgetPane (e : CommandEngine) (now : Nat) (paneId : Uuid) : CommandEngine :=
  let e :=
    match e.active.get paneId with
    | some id => (e.finish now id .paneGone none).1.release id
    | none => e
  { e with pending := e.pending.remove paneId }

omit [Transcript] in
/-- The status of a command: its frozen result once it has finished. -/
def getStatus (e : CommandEngine) (now : Nat) (commandId : Uuid) : Option CommandResult :=
  (e.commands.get commandId).map fun cmd =>
    cmd.result.getD
      { commandId := commandId
        state := CommandState.running.asStr
        exitCode := none
        stdout := []
        truncated := false
        runtimeMs := runtimeMs cmd.startedAt now }

/-- An operation on the engine, at an instant. -/
inductive Op where
  | register (now : Nat) (paneId : Uuid) (prepared : PreparedCommand) (timeout : Nat)
      (completionTx : Bool)
  | processOutput (now : Nat) (paneId : Uuid) (output : List UInt8)
  | checkTimeouts (now : Nat) (listing : Listing)
  | cancelCommand (now : Nat) (commandId : Uuid)
  | forgetPane (now : Nat) (paneId : Uuid)
  | getStatus (now : Nat) (commandId : Uuid)

omit [Transcript] in
/-- The id an operation brings in. -/
def Op.registers : Op → Option Uuid
  | register _ _ prepared _ _ => some prepared.id
  | _ => none

def step (e : CommandEngine) : Op → CommandEngine
  | .register now paneId prepared timeout completionTx =>
    (e.register now paneId prepared timeout completionTx).1
  | .processOutput now paneId output => (e.processOutput now paneId output).1
  | .checkTimeouts now listing => (e.checkTimeouts now listing).1
  | .cancelCommand now commandId => (e.cancelCommand now commandId).1
  | .forgetPane now paneId => e.forgetPane now paneId
  | .getStatus _ _ => e

def run (e : CommandEngine) (ops : List Op) : CommandEngine := ops.foldl step e

end CommandEngine

end Shux.Pty
