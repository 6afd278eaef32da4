/-
# Signals and outcomes of a run

Driving a scenario leaves two things behind: the signals of its trace, in order, and an outcome
with what was compared and how the run ended. The verdict is made from the outcome alone.

Texts that only carry values are kept as those values.
-/

import Shux.Gate.Keys
import Shux.Lib.FinMap

namespace Shux.Gate

open Vt (Crates)

inductive TimeoutClass where
  | step
  | frameSettle
  | scenario
  | neverStabilized
  deriving DecidableEq, Repr

/-- What went wrong with a step or with starting the program. -/
inductive DriveError where
  | keys (step : Nat) (why : KeysError)
  | resize (step : Nat) (why : Str)
  | capture (step : Nat) (why : Str)
  | glanceCells (step : Nat) (why : Str)
  | glanceNoCells (step : Nat)
  | glance (step : Nat) (why : Str)
  /-- The program could not be started, or its directory was refused. -/
  | run (why : Str)
  deriving DecidableEq, Repr

inductive RunnerSignal where
  | scenarioStart (scenario scenarioHash cmdEnvHash : Str) (rows cols : Nat)
  | frameMatch (name tier : Str)
  | frameMismatch (name tier : Str) (reason : Option Str) (changedCells : Option Nat)
  | goldenAbsent (name tier : Str)
  | goldenUntrusted (name tier : Str)
  | childExit (code : Option Int)
  | expectedChildExit (code : Option Int)
  | timeout (cls : TimeoutClass) (stepIndex : Option Nat) (action name : Option Str)
      (elapsedMs budgetMs : Option Nat)
  | quotaExceeded (limit : Nat)
  | parseError (message : DriveError)
  | noVisualCheck
  | retryOutcome (name : Str) (attemptsUsed : Nat) (outcome : Str) (fingerprints : List Str)
  | assertPassed (stepIndex : Nat)
  | assertFailed (stepIndex : Nat) (needle excerpt textSha256 : Str)
  deriving DecidableEq, Repr

inductive FrameKind where
  | match
  | mismatch
  | goldenAbsent
  | goldenUntrusted
  deriving DecidableEq, Repr

/-- What a report says about the retries of a frame. -/
inductive RetryNote where
  | divergedThenMatched (name : Str) (attempt : Nat) (fingerprints : List Str)
  | passed (name : Str) (attempt : Nat) (absorbed : Str)
  | sameDiff (name : Str) (attempts : Nat) (fingerprints : List Str)
  | different (name : Str) (attempts distinct : Nat) (kind : Str) (fingerprints : List Str)
  deriving DecidableEq, Repr

/-- What happened to one `expect_golden` frame, with all that a bless of it needs. -/
structure FrameOutcome (R : Type) where
  name : Str
  tier : Tier
  kind : FrameKind
  reason : Option Str
  verdict : Option (TierVerdict R)
  goldenJson : Str
  liveCaptureJson : Str
  liveCaptureSha256 : Str
  liveFingerprint : Fingerprint R
  xfail : Option XfailMeta
  retryNote : Option RetryNote

/-- How a run ended that did not run to completion. -/
inductive TerminalOutcome where
  | childExit (code : Option Int)
  | stepTimeout (action : Str) (stepIndex : Nat)
  | scenarioDeadline (stepIndex : Nat)
  | settleNeverStable (action : Str)
  | quotaExceeded (limit : Nat)
  | infra (message : DriveError)
  | scenarioError (message : DriveError)
  deriving DecidableEq, Repr

structure RunOutcome (R : Type) where
  scenarioName : Str
  frames : List (FrameOutcome R)
  terminal : Option TerminalOutcome
  hasVisualCheck : Bool
  goldenDir : Str

/-- The golden directory. A file that is there may still be unreadable. -/
structure Goldens where
  captures : FinMap Str (Option Str)
  fingerprints : FinMap Str (Option Str)
  /-- Pictures, by frame and platform. -/
  baselines : FinMap (Str × Str) (Option Bytes)

def tierName : Tier → Str
  | .cell => "cell".toList
  | .pixel => "pixel".toList
  | .exact => "exact".toList

structure FrameCompare (R : Type) where
  signal : RunnerSignal
  verdict : Option (TierVerdict R)

section

variable {R : Type} [F64 R] [Artifacts R]

variable (R) in
/-- Whether a picture is the one a sidecar was made with. -/
def pinOk (tier : Tier) (sidecar : Fingerprint R) (png : Bytes) : Bool :=
  match tier with
  | .exact => decide (sidecar.pngSha256 = some (pngSha256 R png))
  | .pixel =>
    match Artifacts.decodePng R png with
    | .ok img => decide (sidecar.rgbaSha256 = some (rgbaSha256 R img))
    | .error _ => false
  | .cell => true

variable [Crates]

/-- The capture and the sidecar of a golden that can be trusted; the kind of no-compare
otherwise. -/
def trustedGolden (goldens : Goldens) (name : Str) (current : Fingerprint R) :
    Except FrameKind (Vt.FrameEnvelope × Fingerprint R) :=
  match goldens.captures.get name, goldens.fingerprints.get name with
  | some goldenText, some sidecarText =>
    match goldenText.map (Artifacts.fromCanonicalJson R) with
    | some (.ok golden) =>
      match sidecarText.map (Artifacts.fingerprintFromJson (R := R)) with
      | some (.ok sidecar) =>
        if sidecar.isStaleVs current || decide (sidecar.captureSha256 ≠ captureSha256 R golden) then
          .error .goldenUntrusted
        else .ok (golden, sidecar)
      | _ => .error .goldenUntrusted
    | _ => .error .goldenUntrusted
  | _, _ => .error .goldenAbsent

/-- The picture of a golden, where its tier has one. -/
def trustedBaseline (goldens : Goldens) (name : Str) (tier : Tier) (sidecar : Fingerprint R) :
    Except FrameKind (Option Bytes) :=
  if tier = .cell then .ok none
  else
    match goldens.baselines.get (name, Artifacts.osArch R) with
    | none => .error .goldenAbsent
    | some none => .error .goldenUntrusted
    | some (some png) =>
        if pinOk R tier sidecar png then .ok (some png) else .error .goldenUntrusted

/-- Compare a frame with its golden, under the tolerance the golden was blessed with. -/
def compareFrame (goldens : Goldens) (name : Str) (tier : Tier) (live : Vt.FrameEnvelope)
    (current : Fingerprint R) : FrameCompare R :=
  let refused (kind : FrameKind) : FrameCompare R :=
    { signal := if kind = .goldenAbsent then .goldenAbsent name (tierName tier)
        else .goldenUntrusted name (tierName tier)
      verdict := none }
  match trustedGolden goldens name current with
  | .error kind => refused kind
  | .ok (golden, sidecar) =>
    match trustedBaseline goldens name tier sidecar with
    | .error kind => refused kind
    | .ok goldenPng =>
      match evaluateTier tier golden live goldenPng sidecar.tolParams with
      | .ok verdict =>
        if verdict.status = .pass then ⟨.frameMatch name (tierName tier), some verdict⟩
        else if verdict.status = .fail then
          ⟨.frameMismatch name (tierName tier) verdict.reason
            (some verdict.cell.diff.cellsChanged), some verdict⟩
        else refused .goldenUntrusted
      | .error _ => refused .goldenUntrusted

/-- The disposition a signal of the comparison stands for. -/
def frameKind : RunnerSignal → FrameKind
  | .frameMatch .. => .match
  | .frameMismatch .. => .mismatch
  | .goldenAbsent .. => .goldenAbsent
  | _ => .goldenUntrusted

def frameReason : RunnerSignal → Option Str
  | .frameMismatch _ _ reason _ => reason
  | _ => none

end

end Shux.Gate
