/-
# The words of the gate

A run of the gate is judged by one status out of twelve. The exit code of a status is fixed, and
the statuses of many frames roll up into the worst of them. The order is by severity: a green
status loses to an operational error, and both lose to a regression, so that an error is never
what hides a regression.

What is worse is decided by a rank, and statuses of one rank are equal. A rollup is then known by
what its rank is at most.
-/

import Shux.Core.Text
import Shux.Vt.FrameDiff

namespace Shux.Gate

inductive GateStatus where
  | pass
  | fail
  | xfail
  | xpass
  | missingGolden
  | xfailExpired
  | staleGolden
  | childError
  | settleNeverStable
  | scenarioError
  | infraError
  | updateRefused
  deriving DecidableEq, Repr

namespace GateStatus

variable (statuses : List GateStatus)

/-- Every status, in declaration order. -/
def all : List GateStatus :=
  [.pass, .fail, .xfail, .xpass, .missingGolden, .xfailExpired, .staleGolden, .childError,
    .settleNeverStable, .scenarioError, .infraError, .updateRefused]

/-- The frozen exit-code map. -/
def exitCode : GateStatus → Nat
  | .pass | .xfail => 0
  | .fail | .xpass | .missingGolden | .xfailExpired | .staleGolden | .settleNeverStable => 1
  | .scenarioError => 2
  | .infraError => 3
  | .childError => 5
  | .updateRefused => 6

def isGreen (s : GateStatus) : Bool := decide (s.exitCode = 0)

/-- Green, an operational error, or a regression. -/
def severityTier (s : GateStatus) : Nat := if s.isGreen then 0 else if s.exitCode = 1 then 2 else 1

/-- The tier first, then declaration order. -/
def rank (s : GateStatus) : Nat := s.severityTier * 100 + all.idxOf s

def worst (s other : GateStatus) : GateStatus := if s.rank < other.rank then other else s

theorem rank_injective {s t : GateStatus} (h : s.rank = t.rank) : s = t := by
  revert h
  cases s <;> cases t <;> decide

theorem isGreen_iff_rank (s : GateStatus) : s.isGreen = true ↔ s.rank < 100 := by cases s <;> decide

@[simp] theorem rank_worst (s t : GateStatus) : (s.worst t).rank = max s.rank t.rank := by
  unfold worst
  split <;> omega

/-- A rollup is no worse than what all its statuses are no worse than. -/
theorem rank_rollup_le (acc : GateStatus) (n : Nat) :
    (statuses.foldl worst acc).rank ≤ n ↔ acc.rank ≤ n ∧ ∀ s ∈ statuses, s.rank ≤ n := by
  induction statuses generalizing acc with
  | nil => simp
  | cons s rest ih =>
    rw [List.foldl_cons, ih, rank_worst, max_le_iff, List.forall_mem_cons, and_assoc]

/-- Rollups are equal when they are no worse than the same ranks. -/
theorem eq_of_rank_le {s t : GateStatus} (h : ∀ n, s.rank ≤ n ↔ t.rank ≤ n) : s = t :=
  rank_injective (le_antisymm ((h _).2 le_rfl) ((h _).1 le_rfl))

/-- A rollup is green when it starts green and every status is. -/
theorem isGreen_rollup (acc : GateStatus) :
    (statuses.foldl worst acc).isGreen = true ↔
      acc.isGreen = true ∧ ∀ s ∈ statuses, s.isGreen = true := by
  have hle := rank_rollup_le statuses acc 99
  simp only [isGreen_iff_rank, Nat.lt_iff_add_one_le,
    ← Nat.le_sub_iff_add_le (show 1 ≤ 100 by decide)]
  exact hle

end GateStatus

/-- What a scenario says about a frame that is expected to differ. -/
structure XfailMeta where
  reason : Str
  owner : Str
  issue : Str
  expiry : Str
  fingerprint : Option Str
  deriving DecidableEq, Repr

/-- The cells that differ in a failing frame. -/
structure DiffReport where
  changedCells : Nat
  totalCells : Nat
  maxChannelDelta : Option Nat
  regions : Option (List Vt.LensRowSpan)
  deriving DecidableEq, Repr

/-- Why an xfail is refused. -/
inductive MalformedXfail where
  | notADate (expiry : Str)
  | notCanonical (expiry : Str)
  | blankField
  | emptyFingerprint
  deriving DecidableEq, Repr

/-- The text a frame's status is reported with. -/
inductive FrameReason where
  /-- What the comparison said. -/
  | compare (text : Str)
  | xpass
  | xfailMalformed (why : MalformedXfail)
  | xfailExpired (expiry owner : Str)
  | otherRegression
  | noGolden (goldenDir : Str)
  | staleGolden (goldenDir : Str)
  | blessed
  deriving DecidableEq, Repr

structure FrameReport where
  name : Str
  status : GateStatus
  golden : Option Str
  diff : Option DiffReport
  reason : Option FrameReason
  deriving DecidableEq, Repr

end Shux.Gate
