/-
# Blessing

Blessing accepts the frames of a run as goldens. It writes captured state into the repository, so
every write waits for the guards: no CI, no secret in what is committed, no unreviewed change in
the golden directory. Only frames that failed, or have no golden or none to trust, are blessable,
and a sweep leaves frames with an xfail alone.

A write can fail, and what was written before it stays.
-/

import Shux.Gate.Runner

namespace Shux.Gate

open Artifacts

open Vt (Crates FrameEnvelope)

structure BlessedEntry where
  name : Str
  tier : Tier
  oldFingerprint : Option Str
  newFingerprint : Str
  deriving DecidableEq, Repr

structure BlessManifest where
  entries : List BlessedEntry
  deriving DecidableEq, Repr

/-- Why nothing, or not everything, was blessed. -/
inductive Refusal where
  | ambiguousSelector (selector : Str)
  | noSuchFrame (selector : Str)
  | carriesXfail (selector : Str)
  | nothingToBless (selector : Str) (status : GateStatus)
  | ci
  | secrets (rules : List Str)
  | dirtyTree (goldenDir : Str)
  | badCapture (frame : Str) (why : Str)
  | encodePng (frame : Str) (why : Str)
  | serialize (frame : Str) (why : Str)
  | write (why : Str)
  /-- Some goldens were written before the failure. -/
  | partially (why : Refusal) (written : List Str)
  deriving DecidableEq, Repr

inductive BlessOutcome where
  /-- A file operation around the goldens failed. -/
  | error (why : Str)
  | refused (why : Refusal)
  | blessed (manifest : BlessManifest)
  deriving DecidableEq, Repr

structure BlessOptions (R : Type) where
  reason : Option Str
  /-- `--tol`. -/
  tol : Option (TolParams R)

/-- One of the files of a golden. -/
inductive Artifact where
  | baseline
  | capture
  | fingerprint
  deriving DecidableEq, Repr

/-- What a bless meets around it. -/
structure BlessWorld where
  isCi : Bool
  /-- The rules of the secret scan that a text trips. -/
  scan : Str → List Str
  treeIsDirty : Bool
  /-- Making and resolving the golden directory. -/
  prepare : Except Str Unit
  /-- Writing a file of a frame's golden. -/
  write : Str → Artifact → Except Str Unit
  /-- Recording a frame in the approval log. -/
  record : Str → Except Str Unit
  writeManifest : Except Str Unit

/-- `Vec::dedup`. -/
def dedupRuns : List Str → List Str
  | [] => []
  | [a] => [a]
  | a :: b :: rest => if a = b then dedupRuns (b :: rest) else a :: dedupRuns (b :: rest)

/-- Texts in order, each once. -/
def sortedOnce (texts : List Str) : List Str :=
  dedupRuns (texts.mergeSort fun a b => !decide (b < a))

theorem mem_dedupRuns {a : Str} {texts : List Str} : a ∈ dedupRuns texts ↔ a ∈ texts := by
  induction texts with
  | nil => exact Iff.rfl
  | cons b rest ih =>
    cases rest with
    | nil => exact Iff.rfl
    | cons c rest =>
      rw [dedupRuns]
      split_ifs with heq
      · rw [ih, heq]
        exact ⟨List.mem_cons_of_mem _, fun h => (List.mem_cons.1 h).elim
          (fun hc => hc ▸ List.mem_cons_self) id⟩
      · rw [List.mem_cons, ih, List.mem_cons (b := b)]

theorem mem_sortedOnce {a : Str} {texts : List Str} : a ∈ sortedOnce texts ↔ a ∈ texts := by
  rw [sortedOnce, mem_dedupRuns, List.mem_mergeSort]

variable {R : Type}

/-- The statuses of the frames of the one scenario report. -/
def frameStatuses (reports : List ScenarioReport) : List GateStatus :=
  match reports with
  | [] => []
  | r :: _ => r.frames.map FrameReport.status

def isBlessable : GateStatus → Bool
  | .fail | .missingGolden | .staleGolden => true
  | _ => false

def reservedFrameName : Str := "failing".toList

/-- The frames a selector names. -/
def selectTargets (outcome : RunOutcome R) (statuses : List GateStatus) (selector : Str) :
    Except Refusal (List Nat) :=
  if selector = reservedFrameName then
    if outcome.frames.any fun f => decide (f.name = selector) then
      .error (.ambiguousSelector selector)
    else
      .ok ((List.range outcome.frames.length).filter fun i =>
        (statuses[i]?).any isBlessable && (outcome.frames[i]?).any fun f => f.xfail.isNone)
  else
    match outcome.frames.findIdx? fun f => decide (f.name = selector) with
    | none => .error (.noSuchFrame selector)
    | some i =>
      let st := (statuses[i]?).getD .pass
      if (outcome.frames[i]?).any fun f => f.xfail.isSome then .error (.carriesXfail selector)
      else if isBlessable st then .ok [i]
      else .error (.nothingToBless selector st)

section

variable [F64 R] [Crates] [Artifacts R]

/-- The text of a frame, row after row without a break. -/
def visibleText (env : FrameEnvelope) : Str :=
  env.toCells.flatten.flatMap fun cell => cell.grapheme.getD [cell.ch]

def short (sha : Str) : Str := sha.take 12

variable (R) in
def readOldFingerprint (goldens : Goldens) (name : Str) : Option Str := do
  let text ← (goldens.fingerprints.get name).join
  let fp ← (fingerprintFromJson (R := R) text).toOption
  return short fp.captureSha256

/-- The sidecar of a frame that is blessed, without its picture's pins. -/
def blessedFp (f : FrameOutcome R) (tol : Option (TolParams R)) : Fingerprint R :=
  { f.liveFingerprint with
    captureSha256 := f.liveCaptureSha256
    tolParams := tol.getD f.liveFingerprint.tolParams }

/-- Write the capture, then the sidecar, which makes the golden trusted. -/
def writeGolden (world : BlessWorld) (f : FrameOutcome R) (fp : Fingerprint R) (goldens : Goldens) :
    Except Refusal Str × Goldens :=
  match fingerprintToJson fp with
  | .error e => (.error (.serialize f.name e), goldens)
  | .ok sidecar =>
    match world.write f.name .capture with
    | .error e => (.error (.write e), goldens)
    | .ok _ =>
      let goldens :=
        { goldens with captures := goldens.captures.insert f.name (some f.liveCaptureJson) }
      match world.write f.name .fingerprint with
      | .error e => (.error (.write e), goldens)
      | .ok _ =>
        (.ok (short f.liveCaptureSha256),
          { goldens with fingerprints := goldens.fingerprints.insert f.name (some sidecar) })

/-- Write one golden, a picture first where its tier has one. -/
def blessOne (world : BlessWorld) (opts : BlessOptions R) (f : FrameOutcome R) (goldens : Goldens) :
    Except Refusal Str × Goldens :=
  match fromCanonicalJson R f.liveCaptureJson with
  | .error e => (.error (.badCapture f.name e), goldens)
  | .ok env =>
    let fp := blessedFp f opts.tol
    if f.tier = .cell then writeGolden world f fp goldens
    else
      let img := renderEnvelope R env
      match Artifacts.encodePng R img with
      | .error e => (.error (.encodePng f.name e), goldens)
      | .ok png =>
        let fp :=
          { fp with rgbaSha256 := some (rgbaSha256 R img), pngSha256 := some (pngSha256 R png) }
        match world.write f.name .baseline with
        | .error e => (.error (.write e), goldens)
        | .ok _ =>
          writeGolden world f fp
            { goldens with baselines := goldens.baselines.insert (f.name, osArch R) (some png) }

/-- Bless frames one after the other, each with its line in the approval log. -/
def blessAll (world : BlessWorld) (opts : BlessOptions R) :
    List (FrameOutcome R) → List BlessedEntry → Goldens → BlessOutcome × Goldens
  | [], entries, goldens =>
    match world.writeManifest with
    | .error e => (.error e, goldens)
    | .ok _ => (.blessed ⟨entries⟩, goldens)
  | f :: rest, entries, goldens =>
    let oldFp := readOldFingerprint R goldens f.name
    match blessOne world opts f goldens with
    | (.error e, goldens) =>
      (.refused (if entries.isEmpty then e else .partially e (entries.map BlessedEntry.name)),
        goldens)
    | (.ok newFp, goldens) =>
      match world.record f.name with
      | .error e => (.error e, goldens)
      | .ok _ => blessAll world opts rest (entries ++ [⟨f.name, f.tier, oldFp, newFp⟩]) goldens

/-- What the secret scan finds in all that would be committed. -/
def scanHits (world : BlessWorld) (opts : BlessOptions R) (scenario : Str)
    (targets : List (FrameOutcome R)) : List Str :=
  let captured := targets.flatMap fun f =>
    (match fromCanonicalJson R f.liveCaptureJson with
      | .ok env => world.scan (visibleText env)
      | .error _ => world.scan f.liveCaptureJson) ++ world.scan f.name
  sortedOnce (captured ++ world.scan scenario ++ opts.reason.toList.flatMap world.scan)

/-- Run the guards, then write each target. -/
def writeTargets (world : BlessWorld) (opts : BlessOptions R) (outcome : RunOutcome R)
    (targets : List Nat) (goldens : Goldens) : BlessOutcome × Goldens :=
  let frames := targets.filterMap fun i => outcome.frames[i]?
  if world.isCi then (.refused .ci, goldens)
  else if targets.isEmpty then (.blessed ⟨[]⟩, goldens)
  else
    let hits := scanHits world opts outcome.scenarioName frames
    if !hits.isEmpty then (.refused (.secrets hits), goldens)
    else if world.treeIsDirty then (.refused (.dirtyTree outcome.goldenDir), goldens)
    else
      match world.prepare with
      | .error e => (.error e, goldens)
      | .ok _ => blessAll world opts frames [] goldens

/-- Bless the failing frames that `--update` selects. -/
def runUpdate (world : BlessWorld) (opts : BlessOptions R) (outcome : RunOutcome R)
    (reports : List ScenarioReport) (selector : Str) (goldens : Goldens) : BlessOutcome × Goldens :=
  match selectTargets outcome (frameStatuses reports) selector with
  | .error reason => (.refused reason, goldens)
  | .ok targets => writeTargets world opts outcome targets goldens

/-- Bless several named frames at once. -/
def runUpdateMany (world : BlessWorld) (opts : BlessOptions R) (outcome : RunOutcome R)
    (reports : List ScenarioReport) (names : List Str) (goldens : Goldens) :
    BlessOutcome × Goldens :=
  match names.mapM (selectTargets outcome (frameStatuses reports)) with
  | .error reason => (.refused reason, goldens)
  | .ok targets => writeTargets world opts outcome (targets.flatten.mergeSort).dedup goldens

/-- Write first goldens for the frames that have none. -/
def createMissing (world : BlessWorld) (opts : BlessOptions R) (outcome : RunOutcome R)
    (reports : List ScenarioReport) (goldens : Goldens) : BlessOutcome × Goldens :=
  let statuses := frameStatuses reports
  let targets := (List.range outcome.frames.length).filter fun i =>
    decide (statuses[i]? = some .missingGolden)
  writeTargets world opts outcome targets goldens

end

/-- Mark the blessed frames as passed and roll the scenarios up again, from the floor. -/
def applyBlessed (reports : List ScenarioReport) (manifest : BlessManifest) (floor : GateStatus) :
    List ScenarioReport :=
  let blessed := manifest.entries.map BlessedEntry.name
  reports.map fun sr =>
    let frames := sr.frames.map fun f =>
      if f.name ∈ blessed then { f with status := .pass, reason := some .blessed } else f
    { sr with
      frames
      status := (frames.map FrameReport.status).foldl GateStatus.worst floor
      note := sr.note ++ [.blessed manifest.entries.length] }

end Shux.Gate
