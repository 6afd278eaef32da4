/-
# What a green gate means

A step that stops the run leaves a signal that a terminal disposition is made of, so a run without
one drove every step. A step that lets the run go on met its condition, and one that compared a
frame left that frame to the verdict. Text asserts are smoke checks: they are made and recorded,
and the run goes on either way.
-/

import Shux.Gate.Sample

namespace Shux.Gate

open Vt (Crates FrameEnvelope)

section

variable {R : Type} [F64 R] [Crates] [Artifacts R]
variable {lastFail : Option (FrameOutcome R × RunnerSignal)}
variable {frame : FrameOutcome R} {failFps : List Str} {signal : RunnerSignal}

/-- A signal that ends a run is among those emitted. -/
def Drive.Ended (d : Drive R) : Prop := ∃ signal ∈ d.signals, (terminalOf signal).isSome

omit [F64 R] [Crates] [Artifacts R] in
theorem Drive.ended_emit (d : Drive R) (h : (terminalOf signal).isSome) : (d.emit signal).Ended :=
  ⟨signal, by simp [Drive.emit], h⟩

omit [Crates] in
theorem isSome_deriveTerminal (signals : List RunnerSignal) :
    (deriveTerminal signals).isSome = true ↔ ∃ s ∈ signals, (terminalOf s).isSome = true := by
  rw [deriveTerminal, List.findSome?_isSome_iff]

/-- What one drive of a step may add, apart from the end of the run. -/
structure Drive.Grew (d d' : Drive R) : Prop where
  frames : d.frames <+: d'.frames
  signals : d.signals <+: d'.signals

section

omit [F64 R] [Crates] [Artifacts R]

theorem Drive.Grew.refl (d : Drive R) : d.Grew d := ⟨List.prefix_refl _, List.prefix_refl _⟩

theorem Drive.Grew.trans {d d' d'' : Drive R} (h : d.Grew d') (h' : d'.Grew d'') : d.Grew d'' :=
  ⟨h.frames.trans h'.frames, h.signals.trans h'.signals⟩

theorem Drive.grew_emit (d : Drive R) (signal : RunnerSignal) : d.Grew (d.emit signal) :=
  ⟨List.prefix_refl _, List.prefix_append _ _⟩

theorem Drive.grew_push (d : Drive R) (frame : FrameOutcome R) : d.Grew (d.push frame) :=
  ⟨List.prefix_append _ _, List.prefix_refl _⟩

end

/-- A frame that an attempt captured and compared, with a note of the retries or without. -/
def Compared (cfg : Config) (idx : Nat) (golden : GoldenStep) (attempts : Nat → Attempt)
    (budget : Nat) (frame : FrameOutcome R) : Prop :=
  ∃ attempt ≤ budget, ∃ live note, envelopeFromGlance R idx (attempts attempt) = .ok live ∧
    frame = { (captureAndCompare cfg golden live).1 with retryNote := note }

/-- The attempts either end the run or leave one compared frame. -/
structure Attempted (cfg : Config) (idx : Nat) (golden : GoldenStep) (attempts : Nat → Attempt)
    (budget : Nat) (d : Drive R) (result : StepFlow × Drive R) : Prop where
  grew : d.Grew result.2
  stopped : result.1 = .stop → result.2.Ended
  went : result.1 = .continue →
    ∃ frame ∈ result.2.frames, Compared cfg idx golden attempts budget frame

variable {cfg : Config} {idx : Nat} {golden : GoldenStep} {attempts : Nat → Attempt}
  {budget : Nat} {d : Drive R}

omit [F64 R] [Crates] [Artifacts R] in
theorem mem_frames_push (d : Drive R) (frame : FrameOutcome R) (signal : RunnerSignal) :
    frame ∈ ((d.push frame).emit signal).frames := by
  simp [Drive.push, Drive.emit]

theorem Attempted.ended (h : (terminalOf signal).isSome) :
    Attempted cfg idx golden attempts budget d (.stop, d.emit signal) where
  grew := d.grew_emit signal
  stopped := fun _ => d.ended_emit h
  went := fun h => by cases h

/-- A compared frame is reported, behind an audit of its retries or without one. -/
theorem Attempted.reported
    (h : Compared cfg idx golden attempts budget frame) (audit : List RunnerSignal)
    (signal : RunnerSignal) :
    Attempted cfg idx golden attempts budget d
      (.continue, ((audit.foldl Drive.emit d).push frame).emit signal) := by
  have haudit : d.Grew (audit.foldl Drive.emit d) := by
    induction audit generalizing d with
    | nil => exact .refl d
    | cons s rest ih => exact (d.grew_emit s).trans ih
  exact
    { grew := (haudit.trans (Drive.grew_push _ _)).trans (Drive.grew_emit _ _)
      stopped := fun h => by cases h
      went := fun _ => ⟨frame, mem_frames_push _ _ _, h⟩ }

omit [F64 R] [Crates] [Artifacts R] in
theorem retryVerdict_nil (matched : Bool) : retryVerdict [] matched ≠ .divergent := by
  cases matched <;> decide

theorem attempted_reportMatch {attempt : Nat}
    (hframe : Compared cfg idx golden attempts budget frame)
    (hlast : ∀ fo sig, lastFail = some (fo, sig) → Compared cfg idx golden attempts budget fo)
    (hfails : failFps ≠ [] → lastFail.isSome) (signal : RunnerSignal) :
    Attempted cfg idx golden attempts budget d
      (reportMatch golden attempt failFps lastFail frame signal d) := by
  have hnoted : ∀ {fo : FrameOutcome R} (note : RetryNote),
      Compared cfg idx golden attempts budget fo →
        Compared cfg idx golden attempts budget { fo with retryNote := some note } := by
    rintro fo note ⟨i, hi, live, note', hglance, rfl⟩
    exact ⟨i, hi, live, some note, hglance, rfl⟩
  unfold reportMatch
  split
  · next hdivergent =>
    cases lastFail with
    | some last =>
      obtain ⟨fo, sig⟩ := last
      exact .reported (hnoted _ (hlast fo sig rfl)) [_] sig
    | none =>
      have hnil : failFps = [] := by
        by_contra hne
        exact Bool.noConfusion (hfails hne)
      rw [hnil] at hdivergent
      exact (retryVerdict_nil true hdivergent).elim
  · split
    · exact .reported (hnoted _ hframe) [_] signal
    · exact .reported hframe [] signal

theorem attempted_reportMismatch {fo : FrameOutcome R}
    (hframe : Compared cfg idx golden attempts budget fo) (effRetries : Nat) (sig : RunnerSignal) :
    Attempted cfg idx golden attempts budget d
      (reportMismatch golden effRetries failFps fo sig d) := by
  obtain ⟨i, hi, live, note', hglance, rfl⟩ := hframe
  unfold reportMismatch
  split
  · exact .reported ⟨i, hi, live, _, hglance, rfl⟩ [_] sig
  · exact .reported ⟨i, hi, live, note', hglance, rfl⟩ [] sig

/-- One attempt, when what follows a mismatch is known. -/
theorem attempted_attempt (effRetries remaining attempt : Nat) (hbudget : attempt ≤ budget)
    (hlast : ∀ fo sig, lastFail = some (fo, sig) → Compared cfg idx golden attempts budget fo)
    (hfails : failFps ≠ [] → lastFail.isSome)
    (hnext : ∀ (frame : FrameOutcome R) (signal : RunnerSignal),
      Compared cfg idx golden attempts budget frame →
        Attempted cfg idx golden attempts budget d
          (match remaining with
            | remaining + 1 =>
              attemptGolden cfg idx golden effRetries attempts remaining (attempt + 1)
                (failFps ++ [frame.liveCaptureSha256]) (some (frame, signal)) d
            | 0 =>
              reportMismatch golden effRetries (failFps ++ [frame.liveCaptureSha256]) frame signal
                d)) :
    Attempted cfg idx golden attempts budget d
      (attemptGolden cfg idx golden effRetries attempts remaining attempt failFps lastFail d) := by
  unfold attemptGolden
  simp only
  split
  · exact .ended rfl
  · exact .ended rfl
  split
  · exact .ended rfl
  split
  · exact .ended rfl
  next live hglance =>
    have hframe : Compared cfg idx golden attempts budget
        (captureAndCompare (R := R) cfg golden live).1 :=
      ⟨attempt, hbudget, live, none, hglance, rfl⟩
    split
    · exact attempted_reportMatch hframe hlast hfails _
    · exact hnext _ _ hframe
    · exact .reported hframe [] _

theorem attempted_attemptGolden (effRetries remaining attempt : Nat)
    (hbudget : attempt + remaining ≤ budget)
    (hlast : ∀ fo sig, lastFail = some (fo, sig) → Compared cfg idx golden attempts budget fo)
    (hfails : failFps ≠ [] → lastFail.isSome) :
    Attempted cfg idx golden attempts budget d
      (attemptGolden cfg idx golden effRetries attempts remaining attempt failFps lastFail d) := by
  induction remaining generalizing attempt failFps lastFail with
  | zero =>
    refine attempted_attempt effRetries 0 attempt hbudget hlast hfails fun frame signal hframe => ?_
    exact attempted_reportMismatch hframe effRetries signal
  | succ remaining ih =>
    refine attempted_attempt effRetries (remaining + 1) attempt (by omega) hlast hfails
      fun frame signal hframe => ?_
    refine ih (attempt + 1) (by omega) ?_ fun _ => rfl
    rintro fo sig heq
    cases heq
    exact hframe

/-- Its condition, for a step that has one. A step is driven with the program's exit consumed
already or not. -/
def Step.Met (cfg : Config) (idx : Nat) (h : Happening) (consumed : Bool) : Step → Prop
  | .waitForText .. => h.found = true
  | .settle .. => consumed = true ∨ h.settled = .settled
  | .holdSettle .. => consumed = true ∨ h.settled = .settled
  | .stableFrames .. => consumed = true ∨ h.settled = .settled
  | .expectGolden golden =>
    ∃ attempt ≤ max golden.retries cfg.cliRetries, ∃ live,
      envelopeFromGlance R idx (h.attempts attempt) = .ok live ∧
        (captureAndCompare (R := R) cfg golden live).1.kind = .match
  | .assertContains text => ∃ captured, h.captured = .ok captured ∧ text <:+: captured
  | .assertNotContains text => ∃ captured, h.captured = .ok captured ∧ ¬ text <:+: captured
  | .expectExit code _ => ∃ got, h.exit = some got ∧ ∀ want, code = some want → got = some want
  | _ => True

/-- A golden that is expected to differ, and differed so. -/
def Step.Covered [Dates] (cfg : Config) (today : Int) (idx : Nat) (h : Happening) (step : Step) :
    Prop :=
  ∃ golden, step = .expectGolden golden ∧ ∃ x, golden.xfail = some x ∧
    ∃ attempt ≤ max golden.retries cfg.cliRetries, ∃ live,
      envelopeFromGlance R idx (h.attempts attempt) = .ok live ∧
        (captureAndCompare (R := R) cfg golden live).1.kind = .mismatch ∧
          (xfailStatus x (captureSha256 R live) today).1 = .xfail

/-- What a text assert leaves in the trace. -/
def Recorded (idx : Nat) (h : Happening) (d d' : Drive R) (text : Str) (wantPresent : Bool) :
    Prop :=
  ∃ captured, h.captured = .ok captured ∧
    d'.signals = d.signals ++
      [if decide (text <:+: captured) = wantPresent then .assertPassed idx
        else .assertFailed idx text (boundedExcerpt captured 120)
          (Artifacts.sha256Hex R (utf8 captured))]

/-- What a step that let the run go on leaves: a compared frame, a recorded assert, or its
condition met. -/
def Step.Left (cfg : Config) (idx : Nat) (h : Happening) (d d' : Drive R) : Step → Prop
  | .expectGolden golden =>
    ∃ frame ∈ d'.frames,
      Compared cfg idx golden h.attempts (max golden.retries cfg.cliRetries) frame
  | .assertContains text => Recorded idx h d d' text true
  | .assertNotContains text => Recorded idx h d d' text false
  | step => step.Met (R := R) cfg idx h d.childConsumed

/-- What driving a step leads to: the end of the run, or what the step leaves. -/
structure Driven (cfg : Config) (idx : Nat) (step : Step) (h : Happening) (d : Drive R)
    (result : StepFlow × Drive R) : Prop where
  grew : d.Grew result.2
  stopped : result.1 = .stop → result.2.Ended
  went : result.1 = .continue → step.Left cfg idx h d result.2

variable {step : Step} {h : Happening}

theorem Driven.ended {d' : Drive R} (hgrew : d.Grew d') (hsignal : (terminalOf signal).isSome) :
    Driven cfg idx step h d (.stop, d'.emit signal) where
  grew := hgrew.trans (d'.grew_emit signal)
  stopped := fun _ => d'.ended_emit hsignal
  went := fun h => by cases h

theorem Driven.went_on (hleft : step.Left cfg idx h d d) :
    Driven cfg idx step h d (.continue, d) where
  grew := .refl d
  stopped := fun h => by cases h
  went := fun _ => hleft

theorem driven_driveSettle (timeoutMs : Nat)
    (hleft : d.childConsumed = true ∨ h.settled = .settled → step.Left cfg idx h d d) :
    Driven cfg idx step h d (driveSettle idx step timeoutMs h d) := by
  unfold driveSettle
  split
  · exact .ended (.refl d) rfl
  · next hsettled =>
    refine .went_on (hleft ?_)
    cases hconsumed : d.childConsumed with
    | true => exact .inl rfl
    | false =>
      rw [hconsumed] at hsettled
      exact .inr hsettled
  · exact .ended (.refl d) rfl

theorem driven_driveAssert (text : Str) (wantPresent : Bool)
    (hleft : ∀ d', Recorded idx h d d' text wantPresent → step.Left cfg idx h d d') :
    Driven cfg idx step h d (driveAssert idx text wantPresent h d) := by
  unfold driveAssert
  split
  · next captured hcaptured =>
    split
    · next hwant =>
      refine ⟨d.grew_emit _, fun h => (by cases h), fun _ => hleft _ ⟨captured, hcaptured, ?_⟩⟩
      rw [if_pos hwant]
      rfl
    · next hwant =>
      refine ⟨d.grew_emit _, fun h => (by cases h), fun _ => hleft _ ⟨captured, hcaptured, ?_⟩⟩
      rw [if_neg hwant]
      rfl
  · exact .ended (.refl d) rfl

/-- One case for each kind of step. -/
theorem driven_driveStep (cfg : Config) (idx : Nat) (step : Step) (h : Happening) (d : Drive R) :
    Driven cfg idx step h d (driveStep cfg idx step h d) := by
  unfold driveStep
  cases step with
  | waitForText text regex absent timeoutMs =>
    simp only
    split
    · exact .ended (.refl d) rfl
    · split
      · next hfound => exact .went_on hfound
      · exact .ended (.refl d) rfl
  | wait ms =>
    simp only
    split
    · exact .ended (.refl d) rfl
    · exact .went_on trivial
  | settle quietMs timeoutMs | holdSettle holdMs quietMs timeoutMs
  | stableFrames n quietMs timeoutMs => exact driven_driveSettle timeoutMs id
  | typeText text => exact .went_on trivial
  | keys keys =>
    simp only
    split
    · exact .went_on trivial
    · exact .ended (.refl d) rfl
  | paste text => exact .went_on trivial
  | resize rows cols =>
    simp only
    split
    · exact .went_on trivial
    · exact .ended (.refl d) rfl
  | expectGolden golden =>
    have hattempted : Attempted cfg idx golden h.attempts (max golden.retries cfg.cliRetries) d
        (attemptGolden cfg idx golden (max golden.retries cfg.cliRetries) h.attempts
          (max golden.retries cfg.cliRetries) 0 [] none d) :=
      attempted_attemptGolden _ _ 0 (by omega) (fun fo sig heq => by cases heq)
        fun hne => (hne rfl).elim
    exact ⟨hattempted.grew, hattempted.stopped, hattempted.went⟩
  | assertContains text => exact driven_driveAssert text true fun _ => id
  | assertNotContains text => exact driven_driveAssert text false fun _ => id
  | expectExit code timeoutMs =>
    simp only
    split
    · next got hgot =>
      have hgrew : d.Grew { d with childConsumed := true } :=
        ⟨List.prefix_refl _, List.prefix_refl _⟩
      split
      · exact .ended hgrew rfl
      · next hwant =>
        refine ⟨hgrew.trans (Drive.grew_emit _ _), fun h => (by cases h), fun _ => ?_⟩
        refine ⟨got, hgot, fun want hcode => ?_⟩
        by_contra hne
        refine hwant ?_
        rw [hcode, Option.any_some]
        exact decide_eq_true (Ne.symm hne)
    · exact .ended (.refl d) rfl

/-- Steps that were all driven, each in its time and with the program still there. -/
inductive Drove (cfg : Config) (world : Nat → Happening) :
    Nat → List Step → Drive R → Drive R → Prop
  | nil (idx : Nat) (d : Drive R) : Drove cfg world idx [] d d
  | cons {idx : Nat} {step : Step} {rest : List Step} {d d' d'' : Drive R}
      (hlate : (world idx).late = false)
      (hgone : d.childConsumed = true ∨ step.isExpectExit = true ∨ (world idx).gone = none)
      (hoverran : (world idx).overran = false)
      (hstep : driveStep cfg idx step (world idx) d = (.continue, d'))
      (hrest : Drove cfg world (idx + 1) rest d' d'') :
      Drove cfg world idx (step :: rest) d d''

variable {world : Nat → Happening} {deadlineMs : Nat} {steps : List Step} {d' : Drive R}

/-- A run that was not stopped drove every step. -/
theorem drove_driveSteps (hrun : driveSteps cfg deadlineMs world idx steps d = (false, d')) :
    Drove cfg world idx steps d d' := by
  induction steps generalizing idx d with
  | nil =>
    cases hrun
    exact .nil idx _
  | cons step rest ih =>
    rw [driveSteps] at hrun
    cases hlate : (world idx).late with
    | true => simp [hlate] at hrun
    | false =>
      rw [hlate, if_neg (by simp)] at hrun
      split at hrun
      · cases hrun
      · next hgone =>
        cases hoverran : (world idx).overran with
        | true => simp [hoverran] at hrun
        | false =>
          rw [hoverran, if_neg (by simp)] at hrun
          split at hrun
          · next after hstep =>
            refine .cons hlate ?_ hoverran hstep (ih hrun)
            cases hconsumed : d.childConsumed with
            | true => exact .inl rfl
            | false =>
              cases hexit : step.isExpectExit with
              | true => exact .inr (.inl rfl)
              | false =>
                rw [hconsumed, hexit] at hgone
                exact .inr (.inr hgone)
          · cases hrun

/-- A run that was stopped has emitted why. -/
theorem ended_driveSteps
    (hrun : driveSteps cfg deadlineMs world idx steps d = (true, d')) : d'.Ended := by
  induction steps generalizing idx d with
  | nil => cases hrun
  | cons step rest ih =>
    rw [driveSteps] at hrun
    split at hrun
    · cases hrun
      exact d.ended_emit rfl
    split at hrun
    · cases hrun
      exact d.ended_emit rfl
    split at hrun
    · cases hrun
      exact d.ended_emit rfl
    split at hrun
    · exact ih hrun
    · next after hstep =>
      cases hrun
      have hdriven := driven_driveStep cfg idx step (world idx) d
      rw [hstep] at hdriven
      exact hdriven.stopped rfl

theorem Drove.grew (hrun : Drove cfg world idx steps d d') : d.Grew d' := by
  induction hrun with
  | nil idx d => exact .refl d
  | @cons idx step rest d d' d'' _ _ _ hstep _ ih =>
    have hdriven := driven_driveStep cfg idx step (world idx) d
    rw [hstep] at hdriven
    exact hdriven.grew.trans ih

/-- A step of a run that drove them all, with the states around it. -/
theorem Drove.at (hrun : Drove cfg world idx steps d d') {i : Nat} {step : Step}
    (hat : steps[i]? = some step) :
    (world (idx + i)).late = false ∧ (world (idx + i)).overran = false ∧ ∃ e e',
      Drove cfg world idx (steps.take i) d e ∧
        (e.childConsumed = true ∨ step.isExpectExit = true ∨ (world (idx + i)).gone = none) ∧
        driveStep cfg (idx + i) step (world (idx + i)) e = (.continue, e') ∧ e'.Grew d' := by
  induction hrun generalizing i with
  | nil idx d => simp at hat
  | @cons idx first rest d mid d'' hlate hgone hoverran hstep hrest ih =>
    cases i with
    | zero =>
      cases hat
      exact ⟨hlate, hoverran, d, mid, .nil idx d, hgone, hstep, hrest.grew⟩
    | succ i =>
      rw [List.getElem?_cons_succ] at hat
      have hnext := ih hat
      rw [show idx + 1 + i = idx + (i + 1) by omega] at hnext
      obtain ⟨hlate', hoverran', e, e', hdrove, hrest'⟩ := hnext
      exact ⟨hlate', hoverran', e, e', .cons hlate hgone hoverran hstep hdrove, hrest'⟩

/-- Only a run that reached its end has a green verdict, and then it drove every step. -/
theorem drove_of_green [Dates] {scenario : Scenario} {world : World} {today : Int}
    (hgreen : gateExit R cfg scenario world today = 0) :
    ∃ d' : Drive R, Drove cfg world.steps 0 scenario.steps (started cfg scenario) d' ∧
      ∀ frame ∈ d'.frames, (frameStatus frame today cfg.goldenDir).1.isGreen = true := by
  unfold gateExit driveScenario at hgreen
  cases hstart : world.start with
  | running =>
    simp only [hstart] at hgreen
    cases hdriven : driveSteps (R := R) cfg scenario.deadlineMs world.steps 0 scenario.steps
        (started cfg scenario) with
    | mk stopped d' =>
      rw [hdriven] at hgreen
      simp only [exitCode_buildReports] at hgreen
      obtain ⟨⟨hterminal, -⟩, hframes⟩ := hgreen
      cases stopped with
      | true =>
        -- Stopped: the reason is among the signals, so there is a terminal disposition.
        have hended := ended_driveSteps hdriven
        rw [Drive.Ended, ← isSome_deriveTerminal] at hended
        have hnone : deriveTerminal d'.signals = none := hterminal
        rw [hnone] at hended
        cases hended
      | false =>
        refine ⟨d', drove_driveSteps hdriven, fun frame hframe => hframes frame ?_⟩
        unfold watchGrace
        split
        · split
          · split <;> exact hframe
          · exact hframe
        · exact hframe
  | broken => simp [hstart, GateStatus.exitCode] at hgreen
  | cwdRefused why | quotaExceeded | refused why => simp [hstart, exitCode_buildReports] at hgreen

/-- A compared frame that is green matched its golden, or differed from it as its xfail says. -/
theorem Compared.met_or_covered [Dates] {today : Int}
    (hframe : Compared cfg idx golden h.attempts (max golden.retries cfg.cliRetries) frame)
    (hgreen : (frameStatus frame today cfg.goldenDir).1.isGreen = true) (consumed : Bool) :
    Step.Met (R := R) cfg idx h consumed (.expectGolden golden) ∨
      Step.Covered (R := R) cfg today idx h (.expectGolden golden) := by
  obtain ⟨attempt, hattempt, live, note, hglance, rfl⟩ := hframe
  rcases (isGreen_frameStatus _ _ _).1 hgreen with ⟨hkind, -⟩ | ⟨hkind, x, hx, hxfail⟩
  · exact .inl ⟨attempt, hattempt, live, hglance, hkind⟩
  · exact .inr ⟨golden, rfl, x, hx, attempt, hattempt, live, hglance, hkind, hxfail⟩

/-- A green gate drove every step of its scenario in time. Each step met its condition, or is a
golden that differed as a declared xfail says, or is a text assert, which was made and recorded
and decides nothing. -/
theorem gateExit_zero [Dates] {scenario : Scenario} {world : World} {today : Int}
    (hgreen : gateExit R cfg scenario world today = 0) {i : Nat} {step : Step}
    (hat : scenario.steps[i]? = some step) :
    (world.steps i).late = false ∧ (world.steps i).overran = false ∧ ∃ d d' : Drive R,
      Drove cfg world.steps 0 (scenario.steps.take i) (started cfg scenario) d ∧
        (d.childConsumed = true ∨ step.isExpectExit = true ∨ (world.steps i).gone = none) ∧
        driveStep cfg i step (world.steps i) d = (.continue, d') ∧
        (step.Met (R := R) cfg i (world.steps i) d.childConsumed ∨
          step.Covered (R := R) cfg today i (world.steps i) ∨
          (∃ text, step = .assertContains text ∧ Recorded i (world.steps i) d d' text true) ∨
          ∃ text, step = .assertNotContains text ∧
            Recorded i (world.steps i) d d' text false) := by
  obtain ⟨last, hdrove, hframes⟩ := drove_of_green hgreen
  obtain ⟨hlate, hoverran, d, d', hreached, hgone, hstep, hgrew⟩ := hdrove.at hat
  rw [Nat.zero_add] at hlate hoverran hgone hstep
  refine ⟨hlate, hoverran, d, d', hreached, hgone, hstep, ?_⟩
  have hdriven := driven_driveStep cfg i step (world.steps i) d
  rw [hstep] at hdriven
  have hleft := hdriven.went rfl
  cases step with
  | expectGolden golden =>
    obtain ⟨frame, hmem, hframe⟩ := hleft
    have hgreen' := hframes frame (hgrew.frames.subset hmem)
    exact (hframe.met_or_covered hgreen' d.childConsumed).imp_right .inl
  | assertContains text => exact .inr (.inr (.inl ⟨text, rfl, hleft⟩))
  | assertNotContains text => exact .inr (.inr (.inr ⟨text, rfl, hleft⟩))
  | waitForText => exact .inl hleft
  | wait => exact .inl hleft
  | settle => exact .inl hleft
  | holdSettle => exact .inl hleft
  | stableFrames => exact .inl hleft
  | typeText => exact .inl hleft
  | keys => exact .inl hleft
  | paste => exact .inl hleft
  | resize => exact .inl hleft
  | expectExit => exact .inl hleft

end

namespace Sample

/-- The blank cell is the golden. -/
def held : Config := cfg (holding "block".toList "plain".toList)

def scenario : Scenario :=
  ⟨"app".toList, 24, 80, 60000, [.expectGolden goldenStep, .assertContains "ready".toList]⟩

/-- The frame matches its golden and the text is not there. -/
def unready : World where
  start := .running
  steps _ :=
    { late := false, gone := none, overran := false, exit := none, found := false
      settled := .settled, resized := .ok ()
      attempts := fun _ => ⟨.settled, none, .ok (some "block".toList)⟩
      captured := .ok "loading".toList }
  grace := none

theorem gateExit_unready : gateExit ℚ held scenario unready 0 = 0 := by decide +kernel

/-- The gate is green although an assert failed. -/
theorem green_despite_assert :
    ¬ (gateExit ℚ held scenario unready 0 = 0 →
      ∀ (i : Nat) (step : Step), scenario.steps[i]? = some step →
        ∀ consumed, step.Met (R := ℚ) held i (unready.steps i) consumed ∨
        step.Covered (R := ℚ) held 0 i (unready.steps i)) := by
  intro hclaim
  rcases hclaim gateExit_unready 1 (.assertContains "ready".toList) rfl false with hmet | hcovered
  · obtain ⟨captured, hcaptured, hinf⟩ := hmet
    cases hcaptured
    revert hinf
    decide
  · obtain ⟨golden, hgolden, -⟩ := hcovered
    cases hgolden

theorem gateExit_zero_golden :
    (scenario.steps[0]? = some (.expectGolden goldenStep)) ∧ ∃ d d' : Drive ℚ,
      Drove held unready.steps 0 [] (started held scenario) d ∧
        driveStep held 0 (.expectGolden goldenStep) (unready.steps 0) d = (.continue, d') := by
  obtain ⟨-, -, d, d', hdrove, -, hstep, -⟩ :=
    gateExit_zero gateExit_unready (rfl : scenario.steps[0]? = some (.expectGolden goldenStep))
  exact ⟨rfl, d, d', hdrove, hstep⟩

end Sample

end Shux.Gate
