/-
# Driving a scenario

A scenario is driven step by step against a program in a hidden pane. What the daemon, the program
and the clock do meanwhile is given, one record for a step. A step says whether the run goes on,
and leaves its signals and, where it compared a frame, the frame.

A run that is to end leaves the signal of why, and the outcome's terminal disposition is found
among the signals afterwards.
-/

import Shux.Gate.Verdict

namespace Shux.Gate

open Vt (Crates FrameEnvelope MaskRect MaskSet)

/-- An `expect_golden` step. -/
structure GoldenStep where
  name : Str
  tier : Tier
  retries : Nat
  holdMs : Nat
  stableFrames : Nat
  quietMs : Nat
  timeoutMs : Nat
  masks : List MaskRect
  xfail : Option XfailMeta
  deriving DecidableEq

inductive Step where
  | waitForText (text regex : Option Str) (absent : Bool) (timeoutMs : Nat)
  | wait (ms : Nat)
  | settle (quietMs timeoutMs : Nat)
  | holdSettle (holdMs quietMs timeoutMs : Nat)
  | stableFrames (n quietMs timeoutMs : Nat)
  | typeText (text : Str)
  | keys (keys : List Str)
  | paste (text : Str)
  | resize (rows cols : Nat)
  | expectGolden (golden : GoldenStep)
  | assertContains (text : Str)
  | assertNotContains (text : Str)
  | expectExit (code : Option Int) (timeoutMs : Nat)
  deriving DecidableEq

namespace Step

/-- The action a standalone settle is reported with. -/
def action : Step → Str
  | waitForText .. => "wait_for_text".toList
  | wait _ => "wait".toList
  | settle .. => "settle".toList
  | holdSettle .. => "hold_settle".toList
  | stableFrames .. => "stable_frames".toList
  | typeText _ => "type_text".toList
  | keys _ => "keys".toList
  | paste _ => "paste".toList
  | resize .. => "resize".toList
  | expectGolden _ => "expect_golden".toList
  | assertContains _ => "assert_contains".toList
  | assertNotContains _ => "assert_not_contains".toList
  | expectExit .. => "expect_exit".toList

def isExpectGolden : Step → Bool
  | expectGolden _ => true
  | _ => false

def isExpectExit : Step → Bool
  | expectExit .. => true
  | _ => false

end Step

structure Scenario where
  name : Str
  rows : Nat
  cols : Nat
  deadlineMs : Nat
  steps : List Step

inductive SettleOutcome where
  | settled
  | timeout
  | exited (code : Option Int)
  deriving DecidableEq

/-- What one attempt at a golden meets. -/
structure Attempt where
  settled : SettleOutcome
  /-- An exit the monitor has seen by the end of the settle. -/
  seen : Option (Option Int)
  /-- The cells of a masked glance, if the answer has any, as JSON. -/
  glance : Except Str (Option Str)

/-- What happens while a step is driven. -/
structure Happening where
  /-- The scenario's time was over before the step. -/
  late : Bool
  /-- An exit the monitor had seen before the step. -/
  gone : Option (Option Int)
  /-- The scenario's time was over before the step was. -/
  overran : Bool
  /-- An exit the monitor sees before the daemon answers or the step's time is over. -/
  exit : Option (Option Int)
  /-- `pane.wait_for` found what it was asked for. -/
  found : Bool
  settled : SettleOutcome
  resized : Except Str Unit
  attempts : Nat → Attempt
  /-- The text of the pane. -/
  captured : Except Str Str

/-- How starting the program went. -/
inductive Start where
  /-- No daemon, no sandbox or no rasterizer. -/
  | broken
  | cwdRefused (why : Str)
  | quotaExceeded
  | refused (why : Str)
  | running
  deriving DecidableEq

structure World where
  start : Start
  steps : Nat → Happening
  /-- An exit seen in the grace period after the last step. -/
  grace : Option (Option Int)

/-- What a run is made with. -/
structure Config where
  goldens : Goldens
  goldenDir : Str
  scenarioHash : Str
  cmdEnvHash : Str
  cliRetries : Nat

structure Drive (R : Type) where
  signals : List RunnerSignal
  childConsumed : Bool
  frames : List (FrameOutcome R)

inductive StepFlow where
  | continue
  | stop
  deriving DecidableEq

namespace Drive

variable {R : Type}

def emit (d : Drive R) (signal : RunnerSignal) : Drive R :=
  { d with signals := d.signals ++ [signal] }

def push (d : Drive R) (frame : FrameOutcome R) : Drive R :=
  { d with frames := d.frames ++ [frame] }

end Drive

section

variable {R : Type} [F64 R] [Crates] [Artifacts R]

/-- Redaction rectangles of some width. -/
def buildMaskSet (masks : List MaskRect) : MaskSet :=
  ⟨masks.filter fun rect => decide (0 < rect.width)⟩

variable (R) in
/-- The frame of a glance. -/
def envelopeFromGlance (idx : Nat) (a : Attempt) : Except DriveError FrameEnvelope :=
  match a.glance with
  | .error e => .error (.glance idx e)
  | .ok none => .error (.glanceNoCells idx)
  | .ok (some cells) => (Artifacts.fromCanonicalJson R cells).mapError (.glanceCells idx)

/-- A frame and its comparison with the golden it is named after. -/
def captureAndCompare (cfg : Config) (golden : GoldenStep) (live : FrameEnvelope) :
    FrameOutcome R × RunnerSignal :=
  let fp := currentFp golden.tier (buildMaskSet golden.masks) cfg.scenarioHash cfg.cmdEnvHash
  let fc := compareFrame (R := R) cfg.goldens golden.name golden.tier live fp
  ({ name := golden.name
     tier := golden.tier
     kind := frameKind fc.signal
     reason := frameReason fc.signal
     verdict := fc.verdict
     goldenJson := golden.name ++ ".capture.json".toList
     liveCaptureJson := Artifacts.toCanonicalJson R live
     liveCaptureSha256 := captureSha256 R live
     liveFingerprint := fp
     xfail := golden.xfail
     retryNote := none },
   fc.signal)

end

inductive RetryVerdict where
  | cleanPass
  | absorbed
  | divergent
  | exhausted
  deriving DecidableEq

/-- A match redeems failed attempts only when they all failed alike. -/
def retryVerdict (failFps : List Str) (matched : Bool) : RetryVerdict :=
  match matched, failFps.isEmpty, decide (2 ≤ failFps.eraseDups.length) with
  | true, true, _ => .cleanPass
  | _, _, true => .divergent
  | true, false, false => .absorbed
  | false, _, false => .exhausted

def shortFp (sha : Str) : Str := sha.take 12

def shortFps (fps : List Str) : List Str := fps.eraseDups.map shortFp

section

variable {R : Type} [F64 R] [Crates] [Artifacts R]

/-- A frame that matched, as the attempts before it leave it. -/
def reportMatch (golden : GoldenStep) (attempt : Nat) (failFps : List Str)
    (lastFail : Option (FrameOutcome R × RunnerSignal)) (frame : FrameOutcome R)
    (signal : RunnerSignal) (d : Drive R) : StepFlow × Drive R :=
  match retryVerdict failFps true with
  | .divergent =>
    match lastFail with
    | some (fo, sig) =>
      let fo :=
        { fo with retryNote := some (.divergedThenMatched golden.name attempt (shortFps failFps)) }
      let audit := .retryOutcome golden.name attempt "divergent".toList (shortFps failFps)
      (.continue, (((d.emit audit).push fo).emit sig))
    | none => (.stop, d)
  | _ =>
    if 0 < attempt then
      let fp := (failFps.head?.map shortFp).getD []
      let frame := { frame with retryNote := some (.passed golden.name attempt fp) }
      let audit := .retryOutcome golden.name attempt "absorbed".toList (shortFps failFps)
      (.continue, (((d.emit audit).push frame).emit signal))
    else (.continue, ((d.push frame).emit signal))

/-- A frame that never matched in its budget. -/
def reportMismatch (golden : GoldenStep) (effRetries : Nat) (failFps : List Str)
    (fo : FrameOutcome R) (sig : RunnerSignal) (d : Drive R) : StepFlow × Drive R :=
  if 0 < effRetries then
    let kind :=
      if retryVerdict failFps false = .divergent then "divergent".toList else "exhausted".toList
    let distinct := failFps.eraseDups.length
    let attempts := effRetries + 1
    let note : RetryNote :=
      if distinct = 1 then .sameDiff golden.name attempts (shortFps failFps)
      else .different golden.name attempts distinct kind (shortFps failFps)
    let audit := .retryOutcome golden.name effRetries kind (shortFps failFps)
    (.continue, (((d.emit audit).push { fo with retryNote := some note }).emit sig))
  else (.continue, ((d.push fo).emit sig))

/-- Settle, capture and compare, again while a mismatch has attempts left. A divergence has
failures, so the last of them is there when it is reported. -/
def attemptGolden (cfg : Config) (idx : Nat) (golden : GoldenStep) (effRetries : Nat)
    (attempts : Nat → Attempt) :
    Nat → Nat → List Str → Option (FrameOutcome R × RunnerSignal) → Drive R → StepFlow × Drive R
  | remaining, attempt, failFps, lastFail, d =>
    let a := attempts attempt
    match (if d.childConsumed then .settled else a.settled) with
    | .exited code => (.stop, d.emit (.childExit code))
    | .timeout =>
      (.stop, d.emit (.timeout .frameSettle (some idx) (some "expect_golden".toList)
        (some golden.name) none (some golden.timeoutMs)))
    | .settled =>
      match (if d.childConsumed then none else a.seen) with
      | some code => (.stop, d.emit (.childExit code))
      | none =>
        match envelopeFromGlance R idx a with
        | .error e => (.stop, d.emit (.parseError e))
        | .ok live =>
          let (frame, signal) := captureAndCompare cfg golden live
          match frame.kind with
          | .match => reportMatch golden attempt failFps lastFail frame signal d
          | .mismatch =>
            let failFps := failFps ++ [frame.liveCaptureSha256]
            match remaining with
            | remaining + 1 =>
              attemptGolden cfg idx golden effRetries attempts remaining (attempt + 1) failFps
                (some (frame, signal)) d
            | 0 => reportMismatch golden effRetries failFps frame signal d
          | _ => (.continue, (d.push frame).emit signal)
  termination_by structural remaining => remaining

/-- One line of a failed assert. -/
def boundedExcerpt (text : Str) (max : Nat) : Str :=
  (text.map fun c => if c = '\n' then ' ' else c).take max

/-- A standalone settle. -/
def driveSettle (idx : Nat) (step : Step) (timeoutMs : Nat) (h : Happening) (d : Drive R) :
    StepFlow × Drive R :=
  match (if d.childConsumed then .settled else h.settled) with
  | .exited code => (.stop, d.emit (.childExit code))
  | .settled => (.continue, d)
  | .timeout =>
    (.stop, d.emit (.timeout .neverStabilized (some idx) (some step.action) none none
      (some timeoutMs)))

/-- A text assert. A failed one is recorded and the run goes on. -/
def driveAssert (idx : Nat) (text : Str) (wantPresent : Bool) (h : Happening) (d : Drive R) :
    StepFlow × Drive R :=
  match h.captured with
  | .ok captured =>
    if decide (text <:+: captured) = wantPresent then (.continue, d.emit (.assertPassed idx))
    else
      (.continue, d.emit (.assertFailed idx text (boundedExcerpt captured 120)
        (Artifacts.sha256Hex R (utf8 captured))))
  | .error e => (.stop, d.emit (.parseError (.capture idx e)))

def driveStep (cfg : Config) (idx : Nat) (step : Step) (h : Happening) (d : Drive R) :
    StepFlow × Drive R :=
  -- An exit that an earlier step consumed is not waited for again.
  let exited := if d.childConsumed then none else h.exit
  match step with
  | .waitForText _ _ _ timeoutMs =>
    match exited with
    | some code => (.stop, d.emit (.childExit code))
    | none =>
      if h.found then (.continue, d)
      else
        (.stop, d.emit (.timeout .step (some idx) (some "wait_for_text".toList) none none
          (some timeoutMs)))
  | .wait _ =>
    match exited with
    | some code => (.stop, d.emit (.childExit code))
    | none => (.continue, d)
  | .settle _ timeoutMs => driveSettle idx step timeoutMs h d
  | .holdSettle _ _ timeoutMs => driveSettle idx step timeoutMs h d
  | .stableFrames _ _ timeoutMs => driveSettle idx step timeoutMs h d
  | .typeText _ => (.continue, d)
  | .keys keys =>
    match encodeAll keys with
    | .ok _ => (.continue, d)
    | .error e => (.stop, d.emit (.parseError (.keys idx e)))
  | .paste _ => (.continue, d)
  | .resize _ _ =>
    match h.resized with
    | .ok _ => (.continue, d)
    | .error e => (.stop, d.emit (.parseError (.resize idx e)))
  | .expectGolden golden =>
    let effRetries := max golden.retries cfg.cliRetries
    attemptGolden cfg idx golden effRetries h.attempts effRetries 0 [] none d
  | .assertContains text => driveAssert idx text true h d
  | .assertNotContains text => driveAssert idx text false h d
  | .expectExit code timeoutMs =>
    match h.exit with
    | some got =>
      let d := { d with childConsumed := true }
      if code.any fun want => decide (some want ≠ got) then (.stop, d.emit (.childExit got))
      else (.continue, d.emit (.expectedChildExit got))
    | none =>
      (.stop, d.emit (.timeout .step (some idx) (some "expect_exit".toList) none none
        (some timeoutMs)))

def scenarioTimeout (deadlineMs idx : Nat) : RunnerSignal :=
  .timeout .scenario (some idx) none none (some deadlineMs) (some deadlineMs)

/-- Drive the steps from number `idx` on, and say whether the run stopped early. -/
def driveSteps (cfg : Config) (deadlineMs : Nat) (world : Nat → Happening) :
    Nat → List Step → Drive R → Bool × Drive R
  | _, [], d => (false, d)
  | idx, step :: rest, d =>
    let h := world idx
    if h.late then (true, d.emit (scenarioTimeout deadlineMs idx))
    else
      match (if !d.childConsumed && !step.isExpectExit then h.gone else none) with
      | some code => (true, d.emit (.childExit code))
      | none =>
        if h.overran then (true, d.emit (scenarioTimeout deadlineMs idx))
        else
          match driveStep cfg idx step h d with
          | (.continue, d) => driveSteps cfg deadlineMs world (idx + 1) rest d
          | (.stop, d) => (true, d)

/-- The signal that ends a run, as a disposition. -/
def terminalOf : RunnerSignal → Option TerminalOutcome
  | .childExit code => some (.childExit code)
  | .timeout cls stepIndex action _ _ _ =>
    some (match cls with
      | .step => .stepTimeout (action.getD []) (stepIndex.getD 0)
      | .scenario => .scenarioDeadline (stepIndex.getD 0)
      | .frameSettle => .settleNeverStable (action.getD [])
      | .neverStabilized => .settleNeverStable (action.getD []))
  | .parseError message => some (.scenarioError message)
  | _ => none

/-- The first signal that ends a run. -/
def deriveTerminal (signals : List RunnerSignal) : Option TerminalOutcome :=
  signals.findSome? terminalOf

def isExitReport : RunnerSignal → Bool
  | .childExit _ => true
  | .expectedChildExit _ => true
  | _ => false

/-- An unexpected exit around the last step still counts, unless it is a clean one. -/
def watchGrace (stopped : Bool) (grace : Option (Option Int)) (d : Drive R) : Drive R :=
  if !stopped && !d.childConsumed && !d.signals.any isExitReport then
    match grace with
    | some code => if code ≠ some 0 then d.emit (.childExit code) else d
    | none => d
  else d

def scratchQuota : Nat := 16

/-- Whether a scenario compares a frame at all. -/
def Scenario.hasVisual (scenario : Scenario) : Bool := scenario.steps.any Step.isExpectGolden

/-- A run before its first step. -/
def started (cfg : Config) (scenario : Scenario) : Drive R where
  signals :=
    [.scenarioStart scenario.name cfg.scenarioHash cfg.cmdEnvHash scenario.rows scenario.cols] ++
      if scenario.hasVisual then [] else [.noVisualCheck]
  childConsumed := false
  frames := []

/-- Drive a scenario; `none` when the gate could not run it at all. -/
def driveScenario (cfg : Config) (scenario : Scenario) (world : World) : Option (RunOutcome R) :=
  let finish (frames : List (FrameOutcome R)) (terminal : Option TerminalOutcome) :
      RunOutcome R :=
    { scenarioName := scenario.name, frames, terminal
      hasVisualCheck := scenario.hasVisual
      goldenDir := cfg.goldenDir }
  match world.start with
  | .broken => none
  | .cwdRefused why => some (finish [] (some (.infra (.run why))))
  | .quotaExceeded => some (finish [] (some (.quotaExceeded scratchQuota)))
  | .refused why => some (finish [] (some (.infra (.run why))))
  | .running =>
    let (stopped, d) :=
      driveSteps cfg scenario.deadlineMs world.steps 0 scenario.steps (started cfg scenario)
    let d := watchGrace stopped world.grace d
    some (finish d.frames (deriveTerminal d.signals))

variable (R) in
/-- The exit code of a run that blesses nothing. -/
def gateExit [Dates] (cfg : Config) (scenario : Scenario) (world : World) (today : Int) : Nat :=
  match driveScenario (R := R) cfg scenario world with
  | none => GateStatus.infraError.exitCode
  | some outcome => exitCode (buildReports outcome today)

end

end Shux.Gate
