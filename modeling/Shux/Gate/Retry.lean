/-
# Retries of a golden

A golden is attempted again while it mismatches and attempts are left. A match redeems the failed
attempts before it when they all failed alike, and is reported as the last of them otherwise. So
what is recorded is known from the history of the attempts: the matching frame after failures of
one kind, a frame without a golden to trust, or else the last mismatch, unless the step was cut
short.
-/

import Shux.Gate.Agree

namespace Shux.Gate

open FrameOutcome

open Vt (Crates FrameEnvelope)

/-- How one attempt at a golden comes out. -/
inductive AttemptEnd (R : Type) where
  | timeout
  | exited (code : Option Int)
  | captureFailed (why : DriveError)
  | compared (frame : FrameOutcome R) (signal : RunnerSignal)

namespace AttemptEnd

variable {R : Type}
variable {e : AttemptEnd R} {f : FrameOutcome R}

def frame : AttemptEnd R → Option (FrameOutcome R)
  | compared frame _ => some frame
  | _ => none

/-- The frame of an attempt that was compared and did not match. -/
def mismatch (e : AttemptEnd R) : Option (FrameOutcome R) :=
  e.frame.filter fun f => decide (f.kind = .mismatch)

/-- The attempt came to no comparison. -/
def Interrupted (e : AttemptEnd R) : Prop := e.frame = none

theorem frame_of_mismatch (h : e.mismatch = some f) : e.frame = some f ∧ f.kind = .mismatch := by
  rw [mismatch, Option.filter_eq_some_iff, decide_eq_true_eq] at h
  exact h

theorem mismatch_eq_none (hframe : e.frame = some f)
    (hkind : f.kind ≠ .mismatch) : e.mismatch = none := by
  rw [mismatch, hframe, Option.filter_some, if_neg (by rw [decide_eq_true_eq]; exact hkind)]

theorem mismatch_eq_some (hframe : e.frame = some f)
    (hkind : f.kind = .mismatch) : e.mismatch = some f := by
  rw [mismatch, hframe, Option.filter_some, if_pos (by rw [decide_eq_true_eq]; exact hkind)]

end AttemptEnd

section

variable {R : Type} [F64 R] [Crates] [Artifacts R]

/-- How an attempt comes out that meets `a`. -/
def attemptEnd (cfg : Config) (idx : Nat) (golden : GoldenStep) (childConsumed : Bool)
    (a : Attempt) : AttemptEnd R :=
  match (if childConsumed then .settled else a.settled) with
  | .exited code => .exited code
  | .timeout => .timeout
  | .settled =>
    match (if childConsumed then none else a.seen) with
    | some code => .exited code
    | none =>
      match envelopeFromGlance R idx a with
      | .error e => .captureFailed e
      | .ok live =>
        let shot : FrameOutcome R × RunnerSignal := captureAndCompare cfg golden live
        .compared shot.1 shot.2

/-- What the step leaves when its last attempt came out as `e`. -/
def finishAttempt (golden : GoldenStep) (idx effRetries attempt : Nat) (failFps : List Str)
    (lastFail : Option (FrameOutcome R × RunnerSignal)) (e : AttemptEnd R) (d : Drive R) :
    StepFlow × Drive R :=
  match e with
  | .exited code => (.stop, d.emit (.childExit code))
  | .timeout =>
    (.stop, d.emit (.timeout .frameSettle (some idx) (some "expect_golden".toList)
      (some golden.name) none (some golden.timeoutMs)))
  | .captureFailed why => (.stop, d.emit (.parseError why))
  | .compared frame signal =>
    match frame.kind with
    | .match => reportMatch golden attempt failFps lastFail frame signal d
    | .mismatch => reportMismatch golden effRetries (failFps ++ [frame.liveCaptureSha256]) frame
        signal d
    | _ => (.continue, (d.push frame).emit signal)

variable (cfg : Config) (idx : Nat) (golden : GoldenStep) (effRetries : Nat)
  (attempts : Nat → Attempt) (d : Drive R)

/-- An attempt goes on to the next one on a mismatch with attempts left, and is the last
otherwise. -/
theorem attemptGolden_eq (remaining attempt : Nat) (failFps : List Str)
    (lastFail : Option (FrameOutcome R × RunnerSignal)) :
    attemptGolden cfg idx golden effRetries attempts remaining attempt failFps lastFail d =
      match attemptEnd cfg idx golden d.childConsumed (attempts attempt), remaining with
      | .compared frame signal, remaining + 1 =>
        if frame.kind = .mismatch then
          attemptGolden cfg idx golden effRetries attempts remaining (attempt + 1)
            (failFps ++ [frame.liveCaptureSha256]) (some (frame, signal)) d
        else
          finishAttempt golden idx effRetries attempt failFps lastFail (.compared frame signal) d
      | e, _ => finishAttempt golden idx effRetries attempt failFps lastFail e d := by
  rw [attemptGolden.eq_def]
  simp only [attemptEnd]
  cases (if d.childConsumed then SettleOutcome.settled else (attempts attempt).settled) with
  | exited code | timeout => cases remaining <;> rfl
  | settled =>
    cases (if d.childConsumed then none else (attempts attempt).seen) with
    | some code => cases remaining <;> rfl
    | none =>
      cases envelopeFromGlance R idx (attempts attempt) with
      | error e => cases remaining <;> rfl
      | ok live =>
        simp only [finishAttempt]
        generalize (captureAndCompare cfg golden live : FrameOutcome R × RunnerSignal) = shot
        obtain ⟨frame, signal⟩ := shot
        cases remaining <;> cases hkind : frame.kind <;> simp [hkind]

/-- A frame is compared without a note. -/
theorem retryNote_of_compared {childConsumed : Bool} {a : Attempt} {f : FrameOutcome R}
    (h : (attemptEnd cfg idx golden childConsumed a).frame = some f) : f.retryNote = none := by
  rw [attemptEnd] at h
  split at h
  · cases h
  · cases h
  · split at h
    · cases h
    · split at h
      · cases h
      · cases h
        rfl

end

/-- A single fingerprint, however often. -/
theorem eraseDups_length_lt_two {l : List Str} (h : l.eraseDups.length < 2) :
    ∀ a ∈ l, ∀ b ∈ l, a = b := by
  cases l with
  | nil =>
    intro a ha
    cases ha
  | cons c l =>
    rw [List.eraseDups_cons, List.length_cons] at h
    have hnil := List.eq_nil_of_length_eq_zero (Nat.lt_one_iff.1 (Nat.lt_of_succ_lt_succ h))
    have hall : ∀ a ∈ c :: l, a = c := by
      intro a ha
      by_contra hne
      have hmem : a ∈ (l.filter fun b => !b == c).eraseDups := by
        rw [List.mem_eraseDups, List.mem_filter]
        refine ⟨(List.mem_cons.1 ha).resolve_left hne, ?_⟩
        simpa using hne
      rw [hnil] at hmem
      cases hmem
    intro a ha b hb
    rw [hall a ha, hall b hb]

/-- A match does not redeem failures of two kinds. -/
theorem retryVerdict_divergent {failFps : List Str} (h : 2 ≤ failFps.eraseDups.length) :
    retryVerdict failFps true = .divergent := by
  have hempty : failFps.isEmpty = false := by
    cases failFps with
    | nil => exact absurd h (by decide)
    | cons fp fps => rfl
  unfold retryVerdict
  simp [hempty, h]

section

variable {R : Type} (ends : Nat → AttemptEnd R)
variable {frame : FrameOutcome R} {signal : RunnerSignal}

/-- The state of the loop before an attempt: all earlier ones mismatched. -/
structure Failing (attempt : Nat) (failFps : List Str)
    (lastFail : Option (FrameOutcome R × RunnerSignal)) : Prop where
  mismatched : ∀ i < attempt, ∃ f, (ends i).mismatch = some f ∧ f.liveCaptureSha256 ∈ failFps
  nonempty : failFps ≠ [] → 0 < attempt
  latest : 0 < attempt → lastFail.map Prod.fst = (ends (attempt - 1)).mismatch

theorem failing_start : Failing ends 0 [] none where
  mismatched i h := absurd h (Nat.not_lt_zero i)
  nonempty h := absurd rfl h
  latest h := absurd h (Nat.lt_irrefl 0)

variable {ends}

/-- One more attempt mismatched. -/
theorem Failing.next {attempt : Nat} {failFps : List Str}
    {lastFail : Option (FrameOutcome R × RunnerSignal)} (h : Failing ends attempt failFps lastFail)
    (hend : (ends attempt).mismatch = some frame) :
    Failing ends (attempt + 1) (failFps ++ [frame.liveCaptureSha256]) (some (frame, signal)) where
  mismatched i hi := by
    rcases Nat.lt_succ_iff_lt_or_eq.1 hi with hi | rfl
    · obtain ⟨f, hf, hmem⟩ := h.mismatched i hi
      exact ⟨f, hf, List.mem_append_left _ hmem⟩
    · exact ⟨frame, hend, List.mem_append_right _ List.mem_cons_self⟩
  nonempty _ := Nat.succ_pos attempt
  latest _ := hend.symm

variable (ends)

/-- The mismatch that no later attempt up to the last one follows. -/
def LastMismatch (last : Nat) (frame : FrameOutcome R) : Prop :=
  ∃ i ≤ last, (ends i).mismatch = some frame ∧ ∀ j, i < j → j ≤ last → (ends j).mismatch = none

/-- The mismatches before an attempt are of one fingerprint. -/
def FailedAlike (last : Nat) : Prop :=
  ∀ i < last, ∀ j < last, ∀ f g, (ends i).mismatch = some f → (ends j).mismatch = some g →
    f.liveCaptureSha256 = g.liveCaptureSha256

/-- A frame as it was compared, without the note that its retries put on it. -/
def FrameOutcome.compared (frame : FrameOutcome R) : FrameOutcome R :=
  { frame with retryNote := none }

/-- What a recorded frame says about the attempts. -/
structure Recalls (last : Nat) (frame : FrameOutcome R) : Prop where
  redeemed : frame.kind = .match → (ends last).frame = some frame.compared ∧ FailedAlike ends last
  failed : frame.kind ≠ .match →
    ((ends last).frame = some frame ∧ frame.kind ≠ .mismatch) ∨
      LastMismatch ends last frame.compared

variable {ends}

theorem FrameOutcome.compared_eq {f : FrameOutcome R} (h : f.retryNote = none) :
    f.compared = f := by
  obtain ⟨⟩ := f
  cases h
  rfl

theorem FrameOutcome.compared_note (f : FrameOutcome R) (note : Option RetryNote)
    (h : f.retryNote = none) : FrameOutcome.compared { f with retryNote := note } = f := by
  obtain ⟨⟩ := f
  cases h
  rfl

variable {attempt : Nat} {failFps : List Str} {lastFail : Option (FrameOutcome R × RunnerSignal)}
  (hfailing : Failing ends attempt failFps lastFail)
  (hnote : ∀ i f, (ends i).frame = some f → f.retryNote = none)
include hfailing hnote

theorem recalls_match {golden : GoldenStep}
    (hend : (ends attempt).frame = some frame) (hkind : frame.kind = .match) (d : Drive R) :
    ∃ recorded, (reportMatch golden attempt failFps lastFail frame signal d).2.frames =
      d.frames ++ [recorded] ∧ Recalls ends attempt recorded := by
  have hclean := hnote _ _ hend
  unfold reportMatch
  split
  · next hverdict =>
    -- some attempt failed, so there is a last failure
    have hpos : 0 < attempt := by
      refine hfailing.nonempty fun hnil => ?_
      rw [hnil] at hverdict
      cases hverdict
    have hlatest := hfailing.latest hpos
    obtain ⟨f, hf, -⟩ := hfailing.mismatched (attempt - 1) (by omega)
    rw [hf] at hlatest
    cases lastFail with
    | none => cases hlatest
    | some fail =>
      obtain ⟨fo, sig⟩ := fail
      cases hlatest
      obtain ⟨hframe, hmis⟩ := AttemptEnd.frame_of_mismatch hf
      refine ⟨_, rfl, fun h => ?_, fun _ => Or.inr ⟨attempt - 1, by omega, ?_, ?_⟩⟩
      · rw [show kind { fo with retryNote := _ } = fo.kind from rfl, hmis] at h
        cases h
      · rw [compared_note _ _ (hnote _ _ hframe)]
        exact hf
      · intro j hj hle
        have hlast : j = attempt := by omega
        rw [hlast]
        exact AttemptEnd.mismatch_eq_none hend (by rw [hkind]; decide)
  · next hverdict =>
    have halike : FailedAlike ends attempt := by
      have hfps : failFps.eraseDups.length < 2 := by
        by_contra hmany
        refine hverdict ?_
        exact retryVerdict_divergent (Nat.le_of_not_lt hmany)
      intro i hi j hj f g hf hg
      obtain ⟨f', hf', hmem⟩ := hfailing.mismatched i hi
      obtain ⟨g', hg', hmem'⟩ := hfailing.mismatched j hj
      cases hf.symm.trans hf'
      cases hg.symm.trans hg'
      exact eraseDups_length_lt_two hfps _ hmem _ hmem'
    split
    · refine ⟨_, rfl, fun _ => ⟨?_, halike⟩, fun h => absurd hkind h⟩
      rw [compared_note _ _ hclean]
      exact hend
    · refine ⟨frame, rfl, fun _ => ⟨?_, halike⟩, fun h => absurd hkind h⟩
      rw [compared_eq hclean]
      exact hend

omit hfailing in
theorem recalls_mismatch {golden : GoldenStep} {effRetries : Nat}
    (hend : (ends attempt).frame = some frame)
    (hkind : frame.kind = .mismatch) (fps : List Str) (d : Drive R) :
    ∃ recorded, (reportMismatch golden effRetries fps frame signal d).2.frames =
      d.frames ++ [recorded] ∧ Recalls ends attempt recorded := by
  have hclean := hnote _ _ hend
  have hlast : LastMismatch ends attempt frame := by
    refine ⟨attempt, le_rfl, AttemptEnd.mismatch_eq_some hend hkind, fun j hj hle => ?_⟩
    omega
  have hnot : frame.kind ≠ .match := by
    rw [hkind]
    decide
  rw [reportMismatch]
  split
  · refine ⟨_, rfl, fun h => absurd h hnot, fun _ => Or.inr ?_⟩
    rw [compared_note _ _ hclean]
    exact hlast
  · refine ⟨frame, rfl, fun h => absurd h hnot, fun _ => Or.inr ?_⟩
    rw [compared_eq hclean]
    exact hlast

/-- The last attempt records nothing when it was interrupted, and else a frame that recalls the
attempts. -/
theorem recalls_finish {golden : GoldenStep} {idx effRetries : Nat} (d : Drive R) :
    let after := (finishAttempt golden idx effRetries attempt failFps lastFail (ends attempt) d).2
    (after.frames = d.frames ∧ (ends attempt).Interrupted) ∨
      ∃ recorded, after.frames = d.frames ++ [recorded] ∧ Recalls ends attempt recorded := by
  intro after
  cases hend : ends attempt with
  | timeout =>
    refine Or.inl ⟨?_, rfl⟩
    simp only [after, hend]
    rfl
  | exited code =>
    refine Or.inl ⟨?_, rfl⟩
    simp only [after, hend]
    rfl
  | captureFailed why =>
    refine Or.inl ⟨?_, rfl⟩
    simp only [after, hend]
    rfl
  | compared frame signal =>
    have hframe : (ends attempt).frame = some frame := by rw [hend]; rfl
    have hunjudged : frame.kind ≠ .match → frame.kind ≠ .mismatch →
        Recalls ends attempt frame := fun hnot hmis =>
      ⟨fun h => absurd h hnot, fun _ => Or.inl ⟨hframe, hmis⟩⟩
    refine Or.inr ?_
    simp only [after, hend, finishAttempt]
    cases hkind : frame.kind with
    | «match» => exact recalls_match hfailing hnote hframe hkind d
    | mismatch => exact recalls_mismatch hnote hframe hkind _ d
    | goldenAbsent | goldenUntrusted =>
      exact ⟨frame, rfl, hunjudged (by simp [hkind]) (by simp [hkind])⟩

end

section

variable {R : Type} [F64 R] [Crates] [Artifacts R]

/-- The attempts stop within the budget, on one that is not a mismatch or with none left. -/
theorem attemptGolden_recalls (cfg : Config) (idx : Nat) (golden : GoldenStep) (effRetries : Nat)
    (attempts : Nat → Attempt) (d : Drive R) (remaining attempt : Nat) (failFps : List Str)
    (lastFail : Option (FrameOutcome R × RunnerSignal))
    (hfailing : Failing
      (fun i => (attemptEnd cfg idx golden d.childConsumed (attempts i) : AttemptEnd R)) attempt
      failFps lastFail) :
    let ends := fun i => (attemptEnd cfg idx golden d.childConsumed (attempts i) : AttemptEnd R)
    let run := fun attempts =>
      attemptGolden cfg idx golden effRetries attempts remaining attempt failFps lastFail d
    ∃ last, attempt ≤ last ∧ last ≤ attempt + remaining ∧
      (∀ i < last, ∃ f, (ends i).mismatch = some f) ∧
      (∀ attempts', (∀ i ≤ last, attempts' i = attempts i) → run attempts' = run attempts) ∧
      (((run attempts).2.frames = d.frames ∧ (ends last).Interrupted) ∨
        ∃ recorded, (run attempts).2.frames = d.frames ++ [recorded] ∧
          Recalls ends last recorded) := by
  intro ends run
  have hnote : ∀ i f, (ends i).frame = some f → f.retryNote = none :=
    fun i f h => retryNote_of_compared cfg idx golden h
  induction remaining generalizing attempt failFps lastFail with
  | zero =>
    have hrun : ∀ attempts', attempts' attempt = attempts attempt → run attempts' =
        finishAttempt golden idx effRetries attempt failFps lastFail (ends attempt) d := by
      intro attempts' h
      simp only [run]
      rw [attemptGolden_eq, h]
      show (match ends attempt, 0 with | .compared frame signal, _ + 1 => _ | e, _ => _) = _
      cases ends attempt <;> rfl
    refine ⟨attempt, le_rfl, le_rfl, fun i hi => ?_, fun attempts' h => ?_, ?_⟩
    · obtain ⟨f, hf, -⟩ := hfailing.mismatched i hi
      exact ⟨f, hf⟩
    · rw [hrun _ (h _ le_rfl), hrun _ rfl]
    · rw [hrun _ rfl]
      exact recalls_finish hfailing hnote d
  | succ remaining ih =>
    by_cases hmis : ∃ frame, (ends attempt).mismatch = some frame
    · obtain ⟨frame, hmis⟩ := hmis
      obtain ⟨hframe, hkind⟩ := AttemptEnd.frame_of_mismatch hmis
      obtain ⟨signal, hend⟩ : ∃ signal, ends attempt = .compared frame signal := by
        cases hend : ends attempt with
        | compared f signal =>
          rw [hend] at hframe
          cases hframe
          exact ⟨signal, rfl⟩
        | _ => simp [hend, AttemptEnd.frame] at hframe
      have hrun : ∀ attempts', attempts' attempt = attempts attempt → run attempts' =
          attemptGolden cfg idx golden effRetries attempts' remaining (attempt + 1)
            (failFps ++ [frame.liveCaptureSha256]) (some (frame, signal)) d := by
        intro attempts' h
        have hend' : attemptEnd cfg idx golden d.childConsumed (attempts' attempt) =
            .compared frame signal := by
          rw [h]
          exact hend
        simp only [run]
        rw [attemptGolden_eq, hend']
        exact if_pos hkind
      obtain ⟨last, hge, hle, hall, hsame, hrecords⟩ := ih (attempt + 1)
        (failFps ++ [frame.liveCaptureSha256]) (some (frame, signal)) (hfailing.next hmis)
      refine ⟨last, by omega, by omega, hall, fun attempts' h => ?_, ?_⟩
      · rw [hrun _ (h _ (by omega)), hrun _ rfl]
        exact hsame attempts' h
      · rw [hrun _ rfl]
        exact hrecords
    · have hrun : ∀ attempts', attempts' attempt = attempts attempt → run attempts' =
          finishAttempt golden idx effRetries attempt failFps lastFail (ends attempt) d := by
        intro attempts' h
        simp only [run]
        rw [attemptGolden_eq, h]
        show (match ends attempt, remaining + 1 with
          | .compared frame signal, _ + 1 => _ | e, _ => _) = _
        cases hend : ends attempt with
        | compared f signal =>
          have hkind : f.kind ≠ .mismatch := fun hkind =>
            hmis ⟨f, AttemptEnd.mismatch_eq_some (by rw [hend]; rfl) hkind⟩
          exact if_neg hkind
        | _ => rfl
      refine ⟨attempt, le_rfl, by omega, fun i hi => ?_, fun attempts' h => ?_, ?_⟩
      · obtain ⟨f, hf, -⟩ := hfailing.mismatched i hi
        exact ⟨f, hf⟩
      · rw [hrun _ (h _ le_rfl), hrun _ rfl]
      · rw [hrun _ rfl]
        exact recalls_finish hfailing hnote d

/-- An `expect_golden` step records at most one frame, in at most one attempt more than its budget.
It records a match only when its last attempt matched and the earlier ones, all mismatches, were
alike. Otherwise it records the last mismatch, unless it ended on a settle timeout, an exit, a
failed capture or a golden that is missing or not trusted. -/
theorem expectGolden_recalls (cfg : Config) (idx : Nat) (golden : GoldenStep) (h : Happening)
    (d : Drive R) :
    let budget := max golden.retries cfg.cliRetries
    let ends := fun i => (attemptEnd cfg idx golden d.childConsumed (h.attempts i) : AttemptEnd R)
    let after := (driveStep cfg idx (.expectGolden golden) h d).2
    ∃ last ≤ budget,
      (∀ i < last, ∃ f, (ends i).mismatch = some f) ∧
      (∀ h' : Happening, (∀ i ≤ last, h'.attempts i = h.attempts i) →
        driveStep cfg idx (.expectGolden golden) h' d =
          driveStep cfg idx (.expectGolden golden) h d) ∧
      ((after.frames = d.frames ∧ (ends last).Interrupted) ∨
        ∃ recorded, after.frames = d.frames ++ [recorded] ∧
          (recorded.kind = .match →
            (ends last).frame = some recorded.compared ∧ FailedAlike ends last) ∧
          (recorded.kind ≠ .match →
            ((ends last).frame = some recorded ∧
              (recorded.kind = .goldenAbsent ∨ recorded.kind = .goldenUntrusted)) ∨
            LastMismatch ends last recorded.compared)) := by
  intro budget ends after
  obtain ⟨last, -, hle, hall, hsame, hrecords⟩ := attemptGolden_recalls cfg idx golden budget
    h.attempts d budget 0 [] none (failing_start _)
  refine ⟨last, by omega, hall, fun h' hagree => hsame h'.attempts hagree, ?_⟩
  rcases hrecords with hnone | ⟨recorded, hframes, hrecalls⟩
  · exact Or.inl hnone
  · refine Or.inr ⟨recorded, hframes, hrecalls.redeemed, fun hnot => ?_⟩
    rcases hrecalls.failed hnot with ⟨hframe, hmis⟩ | hlast
    · refine Or.inl ⟨hframe, ?_⟩
      cases hkind : recorded.kind with
      | «match» => exact absurd hkind hnot
      | mismatch => exact absurd hkind hmis
      | goldenAbsent => exact Or.inl rfl
      | goldenUntrusted => exact Or.inr rfl
    · exact Or.inr hlast

end

namespace Unportable

open Gate.Sample

/-- The frame fails against its golden, and the next capture fails. -/
def flaky : Happening where
  late := false
  gone := none
  overran := false
  exit := none
  found := false
  settled := .settled
  resized := .ok ()
  attempts i := ⟨.settled, none, if i = 0 then .ok (some "red".toList) else .error "gone".toList⟩
  captured := .error []

def retrying : Config := { cfg written with cliRetries := 1 }

/-- A mismatch is dropped when the capture of the next attempt fails. -/
theorem capture_failure_drops_mismatch :
    let ends := fun i => (attemptEnd retrying 0 goldenStep false (flaky.attempts i) : AttemptEnd ℚ)
    let after := (driveStep retrying 0 (.expectGolden goldenStep) flaky
      (⟨[], false, []⟩ : Drive ℚ)).2
    (∃ f, (ends 0).mismatch = some f) ∧ ends 1 = .captureFailed (.glance 0 "gone".toList) ∧
      after.frames.isEmpty = true := by
  refine ⟨?_, rfl, by decide +kernel⟩
  rw [← Option.isSome_iff_exists]
  with_unfolding_all decide

end Unportable

end Shux.Gate
