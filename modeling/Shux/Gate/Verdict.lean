/-
# The verdict

An outcome is mapped to a report and a report to an exit code. Nothing is driven here and no file
is read: the day on which xfails expire is given.

The status of a scenario is the worst of its frames and of a floor, what the run was worth apart
from its frames. A run that ended early has no frame to show for it, so a rollup that forgets the
floor would pass it.
-/

import Shux.Gate.Signal

namespace Shux.Gate

open GateStatus

/-- The dates of `chrono`, as days. -/
class Dates where
  parse : Str → Option Int
  format : Int → Str

section

variable [Dates]

/-- A canonical `YYYY-MM-DD` date. -/
def parseExpiry (s : Str) : Except MalformedXfail Int :=
  match Dates.parse s with
  | none => .error (.notADate s)
  | some day => if Dates.format day ≠ s then .error (.notCanonical s) else .ok day

/-- An xfail names a reason, an owner and an issue. -/
def xfailIsAccountable (x : XfailMeta) : Bool :=
  !(trim x.reason).isEmpty && !(trim x.owner).isEmpty && !(trim x.issue).isEmpty

/-- What a mismatch is worth under an xfail. -/
def xfailStatus (x : XfailMeta) (liveCaptureSha256 : Str) (today : Int) :
    GateStatus × Option FrameReason :=
  match parseExpiry x.expiry with
  | .error why => (.scenarioError, some (.xfailMalformed why))
  | .ok expiry =>
    if !xfailIsAccountable x then (.scenarioError, some (.xfailMalformed .blankField))
    else if expiry < today then (.xfailExpired, some (.xfailExpired x.expiry x.owner))
    else
      match x.fingerprint with
      | some fp =>
        if (trim fp).isEmpty then (.scenarioError, some (.xfailMalformed .emptyFingerprint))
        else if fp = liveCaptureSha256 then (.xfail, none)
        else (.fail, some .otherRegression)
      | none => (.xfail, none)

variable {R : Type}

/-- The status of a frame and the text it is reported with. -/
def frameStatus (f : FrameOutcome R) (today : Int) (goldenDir : Str) :
    GateStatus × Option FrameReason :=
  match f.kind with
  | .match =>
    match f.xfail with
    | some _ => (.xpass, some .xpass)
    | none => (.pass, none)
  | .mismatch =>
    match f.xfail with
    | none => (.fail, f.reason.map .compare)
    | some x => xfailStatus x f.liveCaptureSha256 today
  | .goldenAbsent => (.missingGolden, some (.noGolden goldenDir))
  | .goldenUntrusted => (.staleGolden, some (.staleGolden goldenDir))

end

/-- The text a scenario is reported with, piece by piece. A terminal one is sanitized. -/
inductive Note where
  | terminal (t : TerminalOutcome)
  | noVisualCheck
  | blessed (goldens : Nat)
  deriving DecidableEq, Repr

structure ScenarioReport where
  scenario : Str
  status : GateStatus
  frames : List FrameReport
  note : List Note
  deriving DecidableEq, Repr

def terminalStatus : TerminalOutcome → GateStatus
  | .childExit _ => .childError
  | .stepTimeout .. => .fail
  | .scenarioDeadline _ => .fail
  | .settleNeverStable _ => .settleNeverStable
  | .quotaExceeded _ => .infraError
  | .infra _ => .infraError
  | .scenarioError _ => .scenarioError

variable {R : Type}

/-- What a run is worth apart from its frames. -/
def scenarioFloor (outcome : RunOutcome R) : GateStatus :=
  let acc :=
    match outcome.terminal with
    | some t => GateStatus.pass.worst (terminalStatus t)
    | none => .pass
  if !outcome.hasVisualCheck && outcome.terminal.isNone then acc.worst .scenarioError else acc

/-- The cells that differ, for a frame that did not match. -/
def diffReport (f : FrameOutcome R) : Option DiffReport :=
  if f.kind ≠ .mismatch then none
  else f.verdict.map fun v =>
    let d := v.cell.diff
    { changedCells := d.cellsChanged
      totalCells := min (d.rows * d.cols) (2 ^ 32 - 1)
      maxChannelDelta := v.pixel.map PixelMetrics.maxChannelDelta
      regions := if d.regionsTruncated ∨ d.cellsChanged = 0 then none else some d.regions }

variable [Dates]

def frameReport (outcome : RunOutcome R) (today : Int) (f : FrameOutcome R) : FrameReport :=
  let (status, reason) := frameStatus f today outcome.goldenDir
  { name := f.name, status, golden := some f.goldenJson, diff := diffReport f, reason }

def buildReports (outcome : RunOutcome R) (today : Int) : List ScenarioReport :=
  let frames := outcome.frames.map (frameReport outcome today)
  let acc := (frames.map FrameReport.status).foldl worst .pass
  let note :=
    if !outcome.hasVisualCheck && outcome.terminal.isNone then [.noVisualCheck]
    else (outcome.terminal.map Note.terminal).toList
  [{ scenario := outcome.scenarioName, status := acc.worst (scenarioFloor outcome), frames, note }]

omit [Dates] in
/-- The exit code of the worst scenario. -/
def exitCode (reports : List ScenarioReport) : Nat :=
  ((reports.map ScenarioReport.status).foldl worst .pass).exitCode

omit [Dates] in
/-- Only a run that reached its end and compared a frame has a green floor. -/
theorem isGreen_scenarioFloor (outcome : RunOutcome R) :
    (scenarioFloor outcome).isGreen = true ↔
      outcome.terminal = none ∧ outcome.hasVisualCheck = true := by
  unfold scenarioFloor
  cases outcome.terminal with
  | none => cases outcome.hasVisualCheck <;> decide
  | some t => cases t <;> cases outcome.hasVisualCheck <;> simp [terminalStatus] <;> decide

/-- What an xfail can make of a mismatch. -/
theorem xfailStatus_cases (x : XfailMeta) (sha : Str) (today : Int) :
    (xfailStatus x sha today).1 ∈
      [xfail, .fail, .xfailExpired, .scenarioError] := by
  unfold xfailStatus
  cases parseExpiry x.expiry with
  | error why => simp
  | ok expiry =>
    simp only
    split
    · simp
    split
    · simp
    cases x.fingerprint with
    | none => simp
    | some fp =>
      simp only
      split
      · simp
      split <;> simp

theorem isGreen_xfailStatus (x : XfailMeta) (sha : Str) (today : Int) :
    (xfailStatus x sha today).1.isGreen = true ↔ (xfailStatus x sha today).1 = .xfail := by
  have hcases := xfailStatus_cases x sha today
  generalize (xfailStatus x sha today).1 = status at *
  revert status
  decide

/-- A frame is green when it matched and nothing else was expected of it, or when it differed as
its xfail says. -/
theorem isGreen_frameStatus (f : FrameOutcome R) (today : Int) (goldenDir : Str) :
    (frameStatus f today goldenDir).1.isGreen = true ↔
      (f.kind = .match ∧ f.xfail = none) ∨
        (f.kind = .mismatch ∧ ∃ x, f.xfail = some x ∧
          (xfailStatus x f.liveCaptureSha256 today).1 = .xfail) := by
  unfold frameStatus
  cases f.kind with
  | «match» => cases f.xfail <;> simp <;> decide
  | mismatch =>
    cases f.xfail with
    | none => simp; decide
    | some x => simpa using isGreen_xfailStatus x _ today
  | goldenAbsent => simp; decide
  | goldenUntrusted => simp; decide

omit [Dates] in
theorem exitCode_eq_zero (reports : List ScenarioReport) :
    exitCode reports = 0 ↔ ∀ report ∈ reports, report.status.isGreen = true := by
  have hgreen := isGreen_rollup (reports.map ScenarioReport.status) .pass
  rw [isGreen, decide_eq_true_iff] at hgreen
  rw [exitCode, hgreen, List.forall_mem_map]
  exact and_iff_right (by decide)

/-- The gate is green when the run reached its end, compared a frame, and every frame is green. -/
theorem exitCode_buildReports (outcome : RunOutcome R) (today : Int) :
    exitCode (buildReports outcome today) = 0 ↔
      (outcome.terminal = none ∧ outcome.hasVisualCheck = true) ∧
        ∀ f ∈ outcome.frames, (frameStatus f today outcome.goldenDir).1.isGreen = true := by
  have hframes : ∀ f, (frameReport outcome today f).status =
      (frameStatus f today outcome.goldenDir).1 := fun _ => rfl
  have hboth : ∀ s t : GateStatus, (s.worst t).isGreen = true ↔
      s.isGreen = true ∧ t.isGreen = true := by
    intro s t
    rw [isGreen_iff_rank, isGreen_iff_rank, isGreen_iff_rank, rank_worst, max_lt_iff]
  rw [exitCode_eq_zero, buildReports, List.forall_mem_singleton, hboth, isGreen_rollup,
    isGreen_scenarioFloor, List.map_map, List.forall_mem_map, and_comm]
  refine and_congr_right fun _ => ?_
  exact and_iff_right (by decide)

end Shux.Gate
