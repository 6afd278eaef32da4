/-
# The mouse of an application

A button event that a client sends names a point of the frame the client showed. The daemon finds
the pane that this frame drew under the point, asks whether the application in it wants the event,
and forwards a report that names the cell of the grid that was drawn there.

The views of a frame are looked up by its number. What the daemon reads of the session, of the
terminals and of the channels while it handles an event is a parameter.
-/

import Shux.Lib.FinMap
import Shux.Ui.Viewport

namespace Shux.Attach

open Checked Ui Vt

abbrev Bytes := List UInt8

/-- What each pane showed in a frame. -/
abbrev Views := FinMap PaneId PaneView

/-- Frames queued to one client before the render loop waits for it. -/
def outboundFrames : Nat := 64

/-- Pane views of the latest frames sent to one client, oldest first, each with its number. -/
structure ShownFrames where
  frames : List (Nat × Views)

namespace ShownFrames

/-- Frames a client can trail the daemon by and still be mapped. -/
def kept : Nat := 2 * outboundFrames

def push (shown : ShownFrames) (frame : Nat) (views : Views) : ShownFrames :=
  let frames := if shown.frames.length = kept then shown.frames.drop 1 else shown.frames
  ⟨frames ++ [(frame, views)]⟩

/-- The views the client saw when it had written a frame: the newest frame not after it. -/
def views (shown : ShownFrames) : Option Nat → Option Views
  | none => shown.frames.getLast?.map Prod.snd
  | some f => (shown.frames.reverse.find? fun entry => entry.1 ≤ f).map Prod.snd

end ShownFrames

inductive MouseKind where
  | down
  | up
  | drag
  | scrollUp
  | scrollDown
  | move
  deriving DecidableEq

inductive ProtoMouseButton where
  | left
  | middle
  | right
  | none
  deriving DecidableEq

/-- A mouse event as a client sends it. -/
structure MouseEvent where
  kind : MouseKind
  button : ProtoMouseButton
  col : Nat
  row : Nat
  shift : Bool
  alt : Bool
  ctrl : Bool
  frame : Option Nat

/-- A button event, as an app's mouse report understands it. -/
inductive ButtonAction where
  | press
  | release
  | drag
  deriving DecidableEq

/-- Who a drag belongs to. -/
inductive SelectionDrag where
  | none
  | copyMode
  | mouseSelection (pane : PaneId)
  /-- Forwarded to an app: the buttons held, the cell last reported, and the offset and the point
  of the event that it was reported for. -/
  | app (pane : PaneId) (buttons : UInt8) (last : Nat × Nat) (rowOffset : Nat) (anchor : Nat × Nat)
  deriving DecidableEq

def SelectionDrag.isApp : SelectionDrag → Bool
  | .app .. => true
  | _ => false

/-- Where a try-send looks for room once the main budget has none. -/
inductive Lane where
  | main
  | control
  | urgent
  deriving DecidableEq

inductive AppMouseRoute where
  | shux
  | forward (pane : PaneId)
  | swallow
  deriving DecidableEq

/-- What was done with an event. -/
inductive AppMouse where
  | notHandled
  | consumed (redraw : Bool)
  deriving DecidableEq

/-- The button action of an event. The wheel has its own routing. -/
def MouseKind.action? : MouseKind → Option ButtonAction
  | .down => some .press
  | .up => some .release
  | .drag => some .drag
  | .scrollUp | .scrollDown | .move => Option.none

/-- Which modes report an action. -/
def modeReports (mode : MouseMode) (action : ButtonAction) : Bool :=
  match mode with
  | .none => false
  | .normal => action ≠ .drag
  | .buttonEvent | .anyEvent => true

/-- Whether a coordinate can be encoded that the app will read back as the cell. -/
def coordsAreEncodable (modes : TerminalModes) : Bool :=
  !modes.utf8Mouse && !modes.urxvtMouse && !modes.pixelMouse

/-- Route a button event. -/
def routeAppMouse (gesture : SelectionDrag) (borderDragActive copyActive shift : Bool)
    (paneHit : Option PaneId) (mode : MouseMode) (encodable : Bool) (action : ButtonAction) :
    AppMouseRoute :=
  match gesture with
  | .app pane .. => if modeReports mode action && encodable then .forward pane else .swallow
  | gesture =>
    if gesture ≠ .none ∨ borderDragActive = true ∨ copyActive = true then .shux
    else if action ≠ .press then .shux
    else if shift then .shux
    else
      match paneHit with
      | Option.none => .shux
      | some pane => if !encodable || !modeReports mode action then .shux else .forward pane

/-- The xterm button code. -/
def buttonCb (action : ButtonAction) (button : ProtoMouseButton) (alt ctrl : Bool) :
    Option Nat := do
  let base ← match button with
    | .left => some 0
    | .middle => some 1
    | .right => some 2
    | .none => match action with
      | .drag => some 3
      | .press | .release => Option.none
  let motion := if action = .drag then 32 else 0
  let mods := (if alt then 8 else 0) ||| (if ctrl then 16 else 0)
  some (base + motion + mods)

/-- The bit of a button in the mask of those held. -/
def buttonBit : ProtoMouseButton → UInt8
  | .left => 1
  | .middle => 2
  | .right => 4
  | .none => 0

/-- The largest coordinate of a legacy report. -/
def x10MouseLimit : Nat := 223

/-- Encode a report of a 1-based cell. -/
def encodeMouseReport (cb : Nat) (release sgr : Bool) (col row : Nat) : Option Bytes :=
  let legacy := release && !sgr
  let col := if legacy then min col x10MouseLimit else col
  let row := if legacy then min row x10MouseLimit else row
  if col = 0 ∨ row = 0 then Option.none
  else if sgr then
    some (asciiBytes ("\x1b[<" ++ toString cb ++ ";" ++ toString col ++ ";" ++ toString row ++
      if release then "m" else "M"))
  else if x10MouseLimit < col ∨ x10MouseLimit < row ∨ x10MouseLimit < cb then Option.none
  else
    -- the older form cannot name the button that came up
    let cb := if release then 3 ||| (cb - cb % 4) else cb
    let enc (v : Nat) : UInt8 := UInt8.ofNat (v + 32)
    some [0x1b, 0x5b, 0x4d, enc cb, enc col, enc row]

/-- Clear a button of a gesture on its release. -/
def endGestureIfReleased (gesture : SelectionDrag) (action : ButtonAction)
    (button : ProtoMouseButton) : SelectionDrag :=
  match gesture with
  | .app pane buttons last rowOffset anchor =>
    if action ≠ .release then gesture
    else
      let bit := buttonBit button
      let buttons := if bit ≠ 0 ∧ buttons &&& bit ≠ 0 then buttons &&& ~~~bit else 0
      if buttons = 0 then .none else .app pane buttons last rowOffset anchor
  | gesture => gesture

/-- A report in a pane's input. -/
structure Report where
  pane : PaneId
  bytes : Bytes
  lane : Lane

/-- What is read while an event is handled. -/
structure MouseWorld where
  /-- Copy mode or its menu is up. -/
  copyActive : Bool
  borderDrag : Bool
  activePane : PaneId
  /-- The pane at a point of the live layout. -/
  live : Nat × Nat → Option PaneId
  /-- The modes of a pane's terminal, and the rows and columns of its grid. -/
  terminal : PaneId → Option (TerminalModes × Nat × Nat)
  /-- The pane is on the screen, when it is hit and when the report is due. -/
  shownAtHit : PaneId → Bool
  shownAtForward : PaneId → Bool
  /-- The pane takes the focus. -/
  focuses : PaneId → Bool
  /-- A selection or its menu is left over. -/
  selectionLeft : Bool
  /-- A report has room in a pane's input. -/
  accepts : Report → Bool

/-- What handling an event did. -/
structure MouseOutcome where
  result : AppMouse
  gesture : SelectionDrag
  sent : List Report := []

def holds (rect : Rect) (col row : Nat) : Bool :=
  decide (rect.x ≤ col) && decide (col < u16Add rect.x rect.width) &&
    decide (rect.y ≤ row) && decide (row < u16Add rect.y rect.height)

/-- Tell the app that every held button came up. -/
def releaseAppGesture (world : MouseWorld) (gesture : SelectionDrag) : List Report :=
  match gesture with
  | .app pane buttons last _ _ =>
    let fit (v n : Nat) : Nat := max (min v (min n 65535)) 1
    let (sgr, last) := match world.terminal pane with
      | some (modes, rows, cols) => (modes.sgrMouse, (fit last.1 cols, fit last.2 rows))
      | Option.none => (false, last)
    let reports := [(1, .left), (2, .middle), (4, .right)].filterMap
      fun (bit, button) => if buttons &&& bit = 0 then Option.none else do
        let cb ← buttonCb .release button false false
        let bytes ← encodeMouseReport cb true sgr last.1 last.2
        some ⟨pane, bytes, .urgent⟩
    reports.filter world.accepts
  | _ => []

/-- What a press does on shux's side; true when that is a visible change. -/
def selectPaneOnPress (world : MouseWorld) (pane : PaneId) : Bool :=
  (pane ≠ world.activePane && world.focuses pane) || world.selectionLeft

section

variable (shown : ShownFrames) (world : MouseWorld) (event : MouseEvent) (gesture : SelectionDrag)

/-- The frame is no longer kept: the app is sent nothing but releases. -/
def handleUnmapped (action : ButtonAction) : MouseOutcome :=
  if gesture.isApp then
    if action = .release then
      ⟨.consumed false, .none, releaseAppGesture world gesture⟩
    else ⟨.consumed false, gesture, []⟩
  else if gesture = .none ∧ world.borderDrag = false ∧ event.shift = false then
    let tracked := (world.live (event.col, event.row)).filter fun pane =>
      (world.terminal pane).any fun t => t.1.mouseTracking ≠ .none
    match tracked with
    | some pane => ⟨.consumed (action = .press && selectPaneOnPress world pane), gesture, []⟩
    | Option.none => ⟨.notHandled, gesture, []⟩
  else ⟨.notHandled, gesture, []⟩

/-- The app does not report the event, which is kept from shux too. -/
def swallowEvent (mode : MouseMode) (action : ButtonAction) : MouseOutcome :=
  if action = .release ∧ mode ≠ .none then
    ⟨.consumed false, .none, releaseAppGesture world gesture⟩
  else ⟨.consumed false, endGestureIfReleased gesture action event.button, []⟩

/-- Forward an event to the pane that it is for. -/
def forwardEvent (views : Views) (pane : PaneId) (sgr : Bool) (action : ButtonAction) :
    Checked MouseOutcome :=
  if world.shownAtForward pane = false then
    pure ⟨.consumed false, .none, releaseAppGesture world gesture⟩
  else do
    let view := views.get pane
    if ¬ view.any (fun view => holds view.rect event.col event.row) ∧ gesture = .none then
      return ⟨.notHandled, gesture, []⟩
    let pin : Bool := gesture ≠ .none
    let view := match gesture with
      | .app _ _ _ rowOffset anchor =>
        if pin ∧ anchor = (event.col, event.row) then view.map (·.withRowOffset rowOffset)
        else view
      | _ => view
    let cell ← match view with
      | some view => do
        let cell ← paneGridCell view (event.col, event.row) pin
        pure (cell.map fun cell => (view, cell))
      | Option.none => pure Option.none
    let bit := buttonBit event.button
    match gesture, cell with
    | .app p buttons last rowOffset anchor, cell =>
      if action = .release ∧ (cell = Option.none ∨ buttons &&& bit = 0) then
        let last := (cell.map Prod.snd).getD last
        return ⟨.consumed false, .none,
          releaseAppGesture world (.app p buttons last rowOffset anchor)⟩
    | _, _ => pure ()
    let redraw := action = .press && selectPaneOnPress world pane
    let some (view, localCol, localRow) := cell
      | return ⟨.consumed redraw, gesture, []⟩
    let some cb := buttonCb action event.button event.alt event.ctrl
      | return ⟨.notHandled, endGestureIfReleased gesture action event.button, []⟩
    let within (v : Nat) : Nat := if pin && !sgr then min v x10MouseLimit else v
    let (localCol, localRow) := (within localCol, within localRow)
    let some bytes := encodeMouseReport cb (action = .release) sgr localCol localRow
      | return ⟨.consumed redraw, gesture, []⟩
    let lane := match action with
      | .press => Lane.control
      | .release => Lane.urgent
      | .drag => Lane.main
    let report : Report := ⟨pane, bytes, lane⟩
    if world.accepts report = false then
      return ⟨.consumed redraw, gesture, []⟩
    let at_ := (localCol, localRow)
    let gesture := match action, gesture with
      | .press, .app _ held _ _ _ =>
        .app pane (held ||| bit) at_ view.rowOffset (event.col, event.row)
      | .press, _ => .app pane bit at_ view.rowOffset (event.col, event.row)
      | action, .app p buttons _ _ _ =>
        endGestureIfReleased (.app p buttons at_ view.rowOffset (event.col, event.row)) action
          event.button
      | _, gesture => gesture
    return ⟨.consumed redraw, gesture, [report]⟩

/-- Forward a press, a drag or a release to a mouse-aware app in the pane under the pointer. -/
def handleAppMouse : Checked MouseOutcome :=
  match event.kind.action? with
  | Option.none => pure ⟨.notHandled, gesture, []⟩
  | some action =>
    match shown.views event.frame with
    | Option.none => pure (handleUnmapped world event gesture action)
    | some views =>
      let paneHit := (views.toAList.entries.find? fun entry =>
        holds entry.2.rect event.col event.row).map Sigma.fst
      if paneHit.any (fun pane => !world.shownAtHit pane) ∧ gesture = .none ∧
          world.borderDrag = false then
        pure ⟨.consumed false, gesture, []⟩
      else
        let modePane := match gesture with
          | .app pane .. => some pane
          | _ => paneHit
        let (mode, sgr, encodable) := match modePane.bind world.terminal with
          | some (modes, _, _) => (modes.mouseTracking, modes.sgrMouse, coordsAreEncodable modes)
          | Option.none => (.none, false, true)
        match routeAppMouse gesture world.borderDrag world.copyActive event.shift paneHit mode
            encodable action with
        | .shux => pure ⟨.notHandled, gesture, []⟩
        | .swallow => pure (swallowEvent world event gesture mode action)
        | .forward pane => forwardEvent world event gesture views pane sgr action

end

end Shux.Attach
