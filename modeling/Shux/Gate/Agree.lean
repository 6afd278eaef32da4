/-
# Blessing and a re-run

After a bless its frames are reported as passed. A re-run that captures the same frames compares
each blessed one with itself, so the two agree on every scenario exactly when no blessed frame is
judged worse against its own capture than the rest of its scenario is. A portable frame without an
xfail passes. One that leans on a palette it overrode fails, one that carries an xfail passes when
it should not, and one that is not well formed is no golden at all.
-/

import Shux.Gate.Rerun
import Shux.Gate.Sample

namespace Shux.Gate

open Vt (Crates FrameEnvelope)
open List GateStatus

section

variable {R : Type} [F64 R] [Crates] [Artifacts R]

/-- Two golden directories hold the same files for a frame. -/
structure Goldens.SameFor (goldens goldens' : Goldens) (name : Str) : Prop where
  captures : goldens'.captures.get name = goldens.captures.get name
  fingerprints : goldens'.fingerprints.get name = goldens.fingerprints.get name
  baselines : ∀ os, goldens'.baselines.get (name, os) = goldens.baselines.get (name, os)

section

omit [Crates]

theorem Goldens.SameFor.refl (goldens : Goldens) (name : Str) : goldens.SameFor goldens name :=
  ⟨rfl, rfl, fun _ => rfl⟩

theorem Goldens.SameFor.symm {goldens goldens' : Goldens} {name : Str}
    (h : goldens.SameFor goldens' name) : goldens'.SameFor goldens name :=
  ⟨h.captures.symm, h.fingerprints.symm, fun os => (h.baselines os).symm⟩

theorem Goldens.SameFor.trans {goldens goldens' goldens'' : Goldens} {name : Str}
    (h : goldens.SameFor goldens' name) (h' : goldens'.SameFor goldens'' name) :
    goldens.SameFor goldens'' name where
  captures := h'.captures.trans h.captures
  fingerprints := h'.fingerprints.trans h.fingerprints
  baselines := fun os => (h'.baselines os).trans (h.baselines os)

end

/-- A comparison reads only the files of its frame. -/
theorem compareFrame_sameFor {goldens goldens' : Goldens} {name : Str}
    (h : goldens.SameFor goldens' name) (tier : Tier) (live : FrameEnvelope)
    (current : Fingerprint R) :
    compareFrame goldens' name tier live current = compareFrame goldens name tier live current := by
  unfold compareFrame trustedGolden trustedBaseline
  rw [h.captures, h.fingerprints, h.baselines]

variable {world : BlessWorld} {opts : BlessOptions R} {f : FrameOutcome R}
  {goldens goldens' : Goldens}

omit [Crates] [F64 R] in
theorem writeGolden_ok {fp : Fingerprint R} {sha : Str}
    (h : writeGolden world f fp goldens = (.ok sha, goldens')) :
    ∃ text, Artifacts.fingerprintToJson fp = .ok text ∧
      goldens' =
        { captures := goldens.captures.insert f.name (some f.liveCaptureJson)
          fingerprints := goldens.fingerprints.insert f.name (some text)
          baselines := goldens.baselines } := by
  unfold writeGolden at h
  cases htext : Artifacts.fingerprintToJson fp with
  | error e => simp [htext] at h
  | ok text =>
    simp only [htext] at h
    split at h
    · simp at h
    split at h
    · simp at h
    simp only [Prod.mk.injEq] at h
    exact ⟨text, rfl, h.2.symm⟩

omit [Crates] in
/-- A frame that was blessed is its own golden, and no other frame's files are touched. -/
theorem blessOne_ok {sha : Str}
    (hrange : (opts.tol.getD f.liveFingerprint.tolParams).InRange)
    (h : blessOne world opts f goldens = (.ok sha, goldens')) :
    Stored goldens' f ∧ ∀ name ≠ f.name, goldens.SameFor goldens' name := by
  unfold blessOne at h
  cases henv : Artifacts.fromCanonicalJson R f.liveCaptureJson with
  | error e => simp [henv] at h
  | ok env =>
    simp only [henv] at h
    by_cases htier : f.tier = .cell
    · rw [if_pos htier] at h
      obtain ⟨text, htext, rfl⟩ := writeGolden_ok h
      refine ⟨⟨by simp, text, opts.tol.getD f.liveFingerprint.tolParams,
        f.liveFingerprint.rgbaSha256, f.liveFingerprint.pngSha256, by simp, htext, hrange,
        fun hne => (hne htier).elim⟩, fun name hne => ?_⟩
      exact ⟨by simp [FinMap.get_insert, hne], by simp [FinMap.get_insert, hne], fun _ => rfl⟩
    · rw [if_neg htier] at h
      cases hpng : Artifacts.encodePng R (Artifacts.renderEnvelope R env) with
      | error e => simp [hpng] at h
      | ok png =>
        simp only [hpng] at h
        split at h
        · simp at h
        obtain ⟨text, htext, rfl⟩ := writeGolden_ok h
        refine ⟨⟨by simp, text, opts.tol.getD f.liveFingerprint.tolParams, _, _, by simp, htext,
          hrange, fun _ => ⟨env, png, henv, hpng, by simp, rfl, rfl⟩⟩, fun name hne => ?_⟩
        refine ⟨by simp [FinMap.get_insert, hne], by simp [FinMap.get_insert, hne], fun os => ?_⟩
        simp [FinMap.get_insert, hne]

/-- Frames of one name are one frame. -/
def Distinct (frames : List (FrameOutcome R)) : Prop :=
  ∀ f ∈ frames, ∀ g ∈ frames, f.name = g.name → f = g

omit [F64 R] [Crates] [Artifacts R] in
theorem Distinct.subset {frames frames' : List (FrameOutcome R)} (h : Distinct frames)
    (hsub : frames' ⊆ frames) : Distinct frames' :=
  fun f hf g hg => h f (hsub hf) g (hsub hg)

omit [Crates] in
/-- What is its own golden stays it while other frames are written. -/
theorem Stored.of_sameFor (h : Stored goldens f) (hsame : goldens.SameFor goldens' f.name) :
    Stored goldens' f := by
  obtain ⟨text, tol, rgba, png, htext, htojson, hrange, hpictured⟩ := h.sidecar
  refine ⟨hsame.captures.trans h.capture, text, tol, rgba, png, hsame.fingerprints.trans htext,
    htojson, hrange, fun htier => ?_⟩
  obtain ⟨env, bytes, henv, hencode, hbaseline, hpins⟩ := hpictured htier
  exact ⟨env, bytes, henv, hencode, (hsame.baselines _).trans hbaseline, hpins⟩

/-- What a successful bless of some frames leaves. -/
structure Blessed (frames : List (FrameOutcome R)) (goldens goldens' : Goldens) : Prop where
  stored : ∀ f ∈ frames, Stored goldens' f
  same : ∀ name, name ∉ frames.map FrameOutcome.name → goldens.SameFor goldens' name

section

omit [Crates]

/-- Each frame is written once, and what comes after it leaves it alone. -/
theorem blessAll_ok {frames : List (FrameOutcome R)} {entries : List BlessedEntry}
    {manifest : BlessManifest} (hdistinct : Distinct frames)
    (hrange : ∀ f ∈ frames,
      (opts.tol.getD f.liveFingerprint.tolParams).InRange)
    (h : blessAll world opts frames entries goldens = (.blessed manifest, goldens')) :
    Blessed frames goldens goldens' ∧ manifest.entries.map BlessedEntry.name =
      entries.map BlessedEntry.name ++ frames.map FrameOutcome.name := by
  induction frames generalizing entries goldens with
  | nil =>
    rw [blessAll] at h
    split at h
    · simp at h
    simp only [Prod.mk.injEq, BlessOutcome.blessed.injEq] at h
    obtain ⟨rfl, rfl⟩ := h
    exact ⟨⟨by simp, fun name _ => .refl _ name⟩, by simp⟩
  | cons f rest ih =>
    rw [blessAll] at h
    split at h
    · simp at h
    next newFp mid hone =>
      split at h
      · simp at h
      obtain ⟨hstored, hothers⟩ := blessOne_ok (hrange f mem_cons_self) hone
      obtain ⟨hrest, hnames⟩ := ih (hdistinct.subset (subset_cons_self f rest))
        (fun g hg => hrange g (mem_cons_of_mem f hg)) h
      refine ⟨⟨?_, ?_⟩, by simpa using hnames⟩
      · intro g hg
        rcases mem_cons.1 hg with rfl | hg
        · by_cases hmem : g.name ∈ rest.map FrameOutcome.name
          · obtain ⟨g', hg', hname⟩ := mem_map.1 hmem
            obtain rfl := hdistinct _ (mem_cons_of_mem g hg') g mem_cons_self hname
            exact hrest.stored _ hg'
          · exact hstored.of_sameFor (hrest.same _ hmem)
        · exact hrest.stored g hg
      · intro name hname
        rw [map_cons, mem_cons, not_or] at hname
        exact (hothers name hname.1).trans (hrest.same name hname.2)

/-- A successful bless has written all its targets. -/
theorem writeTargets_ok {outcome : RunOutcome R} {targets : List Nat} {manifest : BlessManifest}
    (hdistinct : Distinct outcome.frames)
    (hrange : ∀ f ∈ outcome.frames,
      (opts.tol.getD f.liveFingerprint.tolParams).InRange)
    (h : writeTargets world opts outcome targets goldens = (.blessed manifest, goldens')) :
    Blessed (targets.filterMap fun i => outcome.frames[i]?) goldens goldens' ∧
      manifest.entries.map BlessedEntry.name =
        (targets.filterMap fun i => outcome.frames[i]?).map FrameOutcome.name := by
  have hsub : (targets.filterMap fun i => outcome.frames[i]?) ⊆ outcome.frames := by
    intro f hf
    obtain ⟨i, -, hi⟩ := mem_filterMap.1 hf
    exact mem_of_getElem? hi
  unfold writeTargets at h
  simp only at h
  split at h
  · simp at h
  split at h
  · next hempty =>
    rw [List.isEmpty_iff] at hempty
    subst hempty
    simp only [Prod.mk.injEq, BlessOutcome.blessed.injEq] at h
    obtain ⟨rfl, rfl⟩ := h
    exact ⟨⟨by simp, fun name _ => .refl _ name⟩, rfl⟩
  split at h
  · simp at h
  split at h
  · simp at h
  split at h
  · simp at h
  exact blessAll_ok (hdistinct.subset hsub) (fun f hf => hrange f (hsub hf)) h

end

/-- What is asked to be blessed. -/
inductive Selection where
  /-- `--update`. -/
  | update (selector : Str)
  /-- The frames that a review accepted. -/
  | review (names : List Str)
  /-- `--on-missing create`. -/
  | missing

namespace Selection

/-- The frames that are asked for, by number. -/
def targets (selection : Selection) (outcome : RunOutcome R) (statuses : List GateStatus) :
    Except Refusal (List Nat) :=
  match selection with
  | update selector => selectTargets outcome statuses selector
  | review names =>
    (names.mapM (selectTargets outcome statuses)).map fun targets => targets.flatten.mergeSort.dedup
  | missing =>
    .ok ((List.range outcome.frames.length).filter fun i =>
      decide (statuses[i]? = some .missingGolden))

def bless (selection : Selection) (world : BlessWorld) (opts : BlessOptions R)
    (outcome : RunOutcome R) (reports : List ScenarioReport) (goldens : Goldens) :
    BlessOutcome × Goldens :=
  match selection with
  | update selector => runUpdate world opts outcome reports selector goldens
  | review names => runUpdateMany world opts outcome reports names goldens
  | missing => createMissing world opts outcome reports goldens

omit [F64 R] [Crates] in
theorem bless_eq (selection : Selection) (outcome : RunOutcome R) (reports : List ScenarioReport) :
    selection.bless world opts outcome reports goldens =
      match selection.targets outcome (frameStatuses reports) with
      | .error reason => (.refused reason, goldens)
      | .ok targets => writeTargets world opts outcome targets goldens := by
  cases selection with
  | update selector => rfl
  | review names =>
    simp only [bless, runUpdateMany, targets]
    cases names.mapM (selectTargets outcome (frameStatuses reports)) with
    | error reason => rfl
    | ok targets => rfl
  | missing => rfl

end Selection

variable [Dates]

/-- A frame that two runs captured at a step, with what each says about its retries. -/
structure Shot where
  golden : GoldenStep
  live : FrameEnvelope
  note : Option RetryNote
  noteAgain : Option RetryNote

/-- A run of a scenario that was blessed, and a run that captured the same frames against the
goldens just written. Frames of one scenario have different names. -/
structure BlessedRun (R : Type) [F64 R] [Crates] [Artifacts R] [Dates] where
  cfg : Config
  today : Int
  first : RunOutcome R
  world : BlessWorld
  opts : BlessOptions R
  selection : Selection
  manifest : BlessManifest
  goldens : Goldens
  again : RunOutcome R
  /-- The frames, in order. -/
  shots : List Shot
  names : (shots.map fun s => s.golden.name).Nodup
  glanced : ∀ s ∈ shots, ∃ text, Artifacts.fromCanonicalJson R text = .ok s.live
  inRange : opts.InRange
  first_frames : first.frames = shots.map fun s =>
    { (captureAndCompare cfg s.golden s.live).1 with retryNote := s.note }
  blessed : selection.bless world opts first (buildReports first today) cfg.goldens =
    (.blessed manifest, goldens)
  again_frames : again.frames = shots.map fun s =>
    { (captureAndCompare { cfg with goldens } s.golden s.live).1 with retryNote := s.noteAgain }
  again_steps : again = { first with frames := again.frames }

/-- The kind of a frame that is compared with its own capture. -/
def ownKind (f : FrameOutcome R) : FrameKind :=
  match Artifacts.fromCanonicalJson R f.liveCaptureJson with
  | .error _ => .goldenUntrusted
  | .ok live => selfKind live

/-- What a frame is worth against its own capture. -/
def ownStatus (f : FrameOutcome R) (today : Int) : GateStatus :=
  (frameStatus { f with kind := ownKind f } today []).1

omit [F64 R] [Crates] [Artifacts R] in
/-- A frame's status comes from its kind and its xfail. -/
theorem frameStatus_congr {f g : FrameOutcome R} (hkind : f.kind = g.kind)
    (hxfail : f.xfail = g.xfail) (hsha : f.liveCaptureSha256 = g.liveCaptureSha256) (today : Int)
    (dir dir' : Str) : (frameStatus f today dir).1 = (frameStatus g today dir').1 := by
  unfold frameStatus
  rw [hkind, hxfail, hsha]
  cases g.kind with
  | «match» | mismatch => cases g.xfail <;> rfl
  | goldenAbsent => rfl
  | goldenUntrusted => rfl

namespace BlessedRun

/-- The report after the bless. -/
def reported (run : BlessedRun R) : List ScenarioReport :=
  applyBlessed (buildReports run.first run.today) run.manifest (scenarioFloor run.first)

/-- The report of the re-run. -/
def rejudged (run : BlessedRun R) : List ScenarioReport := buildReports run.again run.today

/-- The frames that were asked for. -/
def selected (run : BlessedRun R) : List (FrameOutcome R) :=
  match run.selection.targets run.first (frameStatuses (buildReports run.first run.today)) with
  | .error _ => []
  | .ok targets => targets.filterMap fun i => run.first.frames[i]?

/-- A frame of that name was asked for. -/
def Asked (run : BlessedRun R) (f : FrameOutcome R) : Prop :=
  f.name ∈ run.selected.map FrameOutcome.name

instance (run : BlessedRun R) (f : FrameOutcome R) : Decidable (run.Asked f) :=
  inferInstanceAs (Decidable (_ ∈ _))

/-- What the scenario is worth without the frames that were asked for. -/
def rest (run : BlessedRun R) : GateStatus :=
  ((run.first.frames.filter fun f => decide (¬ run.Asked f)).map
    fun f => (frameStatus f run.today run.first.goldenDir).1).foldl worst
      (scenarioFloor run.first)

/-- No frame that was asked for is worth less against its own capture than the rest of the
scenario. -/
def Lasts (run : BlessedRun R) : Prop :=
  ∀ f ∈ run.selected, (ownStatus f run.today).rank ≤ run.rest.rank

variable (run : BlessedRun R)

theorem selected_subset : run.selected ⊆ run.first.frames := by
  intro f hf
  unfold selected at hf
  split at hf
  · simp at hf
  · obtain ⟨i, -, hi⟩ := mem_filterMap.1 hf
    exact mem_of_getElem? hi

theorem frames_distinct : Distinct run.first.frames := by
  have hnodup : (run.first.frames.map FrameOutcome.name).Nodup := by
    rw [run.first_frames, map_map]
    exact run.names
  exact fun f hf g hg => inj_on_of_nodup_map hnodup hf hg

theorem mem_selected_iff {f : FrameOutcome R} (hf : f ∈ run.first.frames) :
    f ∈ run.selected ↔ run.Asked f := by
  refine ⟨mem_map_of_mem, fun h => ?_⟩
  obtain ⟨g, hg, hname⟩ := mem_map.1 h
  rwa [← run.frames_distinct g (run.selected_subset hg) f hf hname]

/-- Every frame that was asked for is its own golden now, and no other golden was touched. -/
theorem after_bless (hlaws : LibraryLaws R) :
    Blessed run.selected run.cfg.goldens run.goldens ∧
      run.manifest.entries.map BlessedEntry.name = run.selected.map FrameOutcome.name := by
  have hrange : ∀ f ∈ run.first.frames,
      (run.opts.tol.getD f.liveFingerprint.tolParams).InRange := by
    intro f hf
    cases htol : run.opts.tol with
    | some tol => exact run.inRange tol htol
    | none =>
      rw [run.first_frames] at hf
      obtain ⟨s, -, rfl⟩ := mem_map.1 hf
      exact ⟨hlaws.le_zero, hlaws.zero_le_one⟩
  have hblessed := run.blessed
  rw [Selection.bless_eq] at hblessed
  unfold selected
  split at hblessed
  · simp at hblessed
  next targets htargets => exact writeTargets_ok run.frames_distinct hrange hblessed

/-- The status of a frame in the re-run: its own for one that was blessed, and as before for one
that was not. -/
def statusAgain (f : FrameOutcome R) : GateStatus :=
  if run.Asked f then ownStatus f run.today
  else (frameStatus f run.today run.first.goldenDir).1

theorem statuses_again (hlaws : LibraryLaws R) :
    run.again.frames.map (fun f => (frameStatus f run.today run.again.goldenDir).1) =
      run.first.frames.map run.statusAgain := by
  obtain ⟨hblessed, -⟩ := run.after_bless hlaws
  have hdir : run.again.goldenDir = run.first.goldenDir := by rw [run.again_steps]
  rw [run.again_frames, run.first_frames, map_map, map_map]
  refine map_congr_left fun s hs => ?_
  obtain ⟨text, htext⟩ := run.glanced s hs
  obtain ⟨f, hf⟩ : ∃ f, f = { (captureAndCompare (R := R) run.cfg s.golden s.live).1 with
    retryNote := s.note } := ⟨_, rfl⟩
  have hfrom : FromCapture run.cfg f s.golden s.live := ⟨⟨text, htext⟩, s.note, hf⟩
  have hmem : f ∈ run.first.frames := by
    rw [run.first_frames, hf]
    exact mem_map_of_mem hs
  simp only [Function.comp_apply, ← hf, hdir, statusAgain]
  by_cases hasked : run.Asked f
  · -- The frame is its own golden.
    have hkind := kind_of_stored hlaws hfrom
      (hblessed.stored f ((run.mem_selected_iff hmem).2 hasked))
    have hown : ownKind f = selfKind s.live := by
      unfold ownKind
      rw [hfrom.read hlaws]
    rw [if_pos hasked, ownStatus, hown]
    exact frameStatus_congr hkind hfrom.fields.xfail.symm hfrom.fields.sha.symm _ _ _
  · -- The files of the frame are as they were.
    rw [if_neg hasked]
    have hsame : run.cfg.goldens.SameFor run.goldens s.golden.name := by
      refine hblessed.same _ ?_
      rw [← hfrom.fields.name]
      exact hasked
    refine frameStatus_congr ?_ hfrom.fields.xfail.symm hfrom.fields.sha.symm _ _ _
    rw [hf]
    exact congrArg (fun fc => frameKind fc.signal)
      (compareFrame_sameFor hsame s.golden.tier s.live (currentFp (R := R) s.golden.tier
        (buildMaskSet s.golden.masks) run.cfg.scenarioHash run.cfg.cmdEnvHash))

/-- The one status of a list of reports. -/
theorem map_status_reported (hlaws : LibraryLaws R) :
    run.reported.map ScenarioReport.status = [run.rest] := by
  obtain ⟨-, hnames⟩ := run.after_bless hlaws
  have hpass : GateStatus.pass.rank = 0 := by decide
  unfold reported applyBlessed buildReports
  simp only [map_cons, map_nil, hnames, map_map, List.cons.injEq, and_true]
  refine eq_of_rank_le fun n => ?_
  rw [rest, rank_rollup_le, rank_rollup_le]
  refine and_congr_right fun _ => ?_
  simp only [forall_mem_map, mem_filter, decide_eq_true_iff, Function.comp_apply]
  refine ⟨fun h f hf => ?_, fun h f hf => ?_⟩
  · have hstatus := h f hf.1
    rw [if_neg (show (frameReport run.first run.today f).name ∉ _ from hf.2)] at hstatus
    exact hstatus
  · by_cases hasked : run.Asked f
    · rw [if_pos (show (frameReport run.first run.today f).name ∈ _ from hasked), hpass]
      exact Nat.zero_le n
    · rw [if_neg (show (frameReport run.first run.today f).name ∉ _ from hasked)]
      exact h f ⟨hf, hasked⟩

/-- The re-run is as bad as the rest of the scenario and every frame that was asked for. -/
theorem map_status_rejudged (hlaws : LibraryLaws R) :
    ∃ status, run.rejudged.map ScenarioReport.status = [status] ∧
      ∀ n, status.rank ≤ n ↔
        run.rest.rank ≤ n ∧ ∀ f ∈ run.selected, (ownStatus f run.today).rank ≤ n := by
  have hfloor : scenarioFloor run.again = scenarioFloor run.first := by rw [run.again_steps]; rfl
  have hpass : GateStatus.pass.rank = 0 := by decide
  refine ⟨_, rfl, fun n => ?_⟩
  rw [map_map, show FrameReport.status ∘ frameReport run.again run.today =
    fun f => (frameStatus f run.today run.again.goldenDir).1 from rfl, run.statuses_again hlaws,
    hfloor, rank_worst, max_le_iff, rank_rollup_le, hpass, rest,
    rank_rollup_le]
  simp only [forall_mem_map, mem_filter, decide_eq_true_iff, Nat.zero_le, true_and]
  refine ⟨fun ⟨hagain, hrest⟩ => ⟨⟨hrest, fun f hf => ?_⟩, fun f hf => ?_⟩,
    fun ⟨⟨hrest, hothers⟩, hown⟩ => ⟨fun f hf => ?_, hrest⟩⟩
  · have hstatus := hagain f hf.1
    rwa [statusAgain, if_neg hf.2] at hstatus
  · have hmem := run.selected_subset hf
    have hstatus := hagain f hmem
    rwa [statusAgain, if_pos ((run.mem_selected_iff hmem).1 hf)] at hstatus
  · rw [statusAgain]
    split
    · next hasked => exact hown f ((run.mem_selected_iff hf).2 hasked)
    · next hasked => exact hothers f ⟨hf, hasked⟩

/-- A scenario is reported as it would be judged again when its blessed frames last. -/
theorem status_eq_iff (hlaws : LibraryLaws R) :
    run.reported.map ScenarioReport.status = run.rejudged.map ScenarioReport.status ↔
      run.Lasts := by
  obtain ⟨status, hstatus, hle⟩ := run.map_status_rejudged hlaws
  rw [run.map_status_reported hlaws, hstatus, List.cons.injEq, and_iff_left rfl]
  refine ⟨fun heq => ?_, fun hlasts => ?_⟩
  · exact ((hle run.rest.rank).1 (by rw [heq])).2
  · refine eq_of_rank_le fun n => ?_
    rw [hle n]
    exact ⟨fun h => ⟨h, fun f hf => (hlasts f hf).trans h⟩, And.left⟩

end BlessedRun

/-- Statuses and exit code of any number of scenarios agree with a re-run exactly when the blessed
frames last. -/
theorem blessing_agrees (hlaws : LibraryLaws R) (runs : List (BlessedRun R)) :
    (runs.map (fun run => run.reported.map ScenarioReport.status) =
        runs.map (fun run => run.rejudged.map ScenarioReport.status) ∧
      exitCode (runs.flatMap BlessedRun.reported) =
        exitCode (runs.flatMap BlessedRun.rejudged)) ↔ ∀ run ∈ runs, run.Lasts := by
  have hstatuses : (runs.map (fun run => run.reported.map ScenarioReport.status) =
      runs.map (fun run => run.rejudged.map ScenarioReport.status)) ↔
        ∀ run ∈ runs, run.Lasts := by
    rw [map_inj_left]
    exact forall₂_congr fun run _ => run.status_eq_iff hlaws
  rw [← hstatuses]
  refine and_iff_left_of_imp fun heq => ?_
  rw [exitCode, exitCode, map_flatMap, map_flatMap, flatMap_def, flatMap_def, heq]

end

namespace Sample

theorem readFrom_eq_ok {α : Type} {table : List (Str × α)} {text : Str} {value : α}
    (h : readFrom table text = .ok value) : (text, value) ∈ table := by
  unfold readFrom at h
  split at h
  · next entry hentry =>
    cases h
    obtain rfl : entry.1 = text := by simpa using find?_some hentry
    exact mem_of_find?_eq_some hentry
  · cases h

theorem textIn_eq_ok {α : Type} [DecidableEq α] {table : List (Str × α)} {text : Str} {value : α}
    (h : textIn table value = .ok text) : (text, value) ∈ table := by
  unfold textIn at h
  split at h
  · next entry hentry =>
    cases h
    obtain rfl : entry.2 = value := by simpa using find?_some hentry
    exact mem_of_find?_eq_some hentry
  · cases h

theorem libraryLaws : LibraryLaws ℚ where
  le_zero := by decide
  zero_le_one := by
    refine decide_eq_true ?_
    show (0 : ℚ) ≤ ((1 : ℕ) : ℚ) / ((1 : ℕ) : ℚ)
    norm_num
  same_zero := by decide
  ratio_zero n _ := by
    show ((0 : ℕ) : ℚ) / n = 0
    rw [Nat.cast_zero, zero_div]
  canonicalJson text env h := by
    have hreads : ∀ entry ∈ captures,
        readFrom captures ((textIn captures entry.2).toOption.getD []) = .ok entry.2 := by decide
    exact hreads _ (readFrom_eq_ok h)
  fingerprintJson fp text _ h := by
    have hreads : ∀ entry ∈ sidecars, readFrom sidecars entry.1 = .ok entry.2 := by decide
    have hranges : ∀ entry ∈ sidecars, F64.le F64.zero entry.2.tolParams.maxChangedFrac = true := by
      decide
    have hmem := textIn_eq_ok h
    exact ⟨fp.tolParams.maxChangedFrac, hranges _ hmem, hreads _ hmem⟩
  png img png h := by
    replace h : (if img.width = 1 ∧ img.height = 1 then .ok img.raw else .error [] :
      Except Str Bytes) = .ok png := h
    split_ifs at h with hdims
    obtain ⟨width, height, raw, hlength⟩ := img
    obtain ⟨rfl, rfl⟩ := hdims
    cases h
    exact dif_pos hlength

end Sample

namespace Unportable

open Gate.Sample

def outcome (goldens : Goldens) : RunOutcome ℚ where
  scenarioName := "app".toList
  frames := [(captureAndCompare (cfg goldens) goldenStep red).1]
  terminal := none
  hasVisualCheck := true
  goldenDir := "goldens".toList

/-- No golden yet. -/
def nothing : Goldens := ⟨∅, ∅, ∅⟩

/-- The golden that is written. -/
def written : Goldens := holding "red".toList "tinted".toList

theorem bless_outcome : (Selection.update "start".toList).bless world ⟨none, none⟩
    (outcome nothing) (buildReports (outcome nothing) 0) nothing =
      (.blessed ⟨[⟨"start".toList, .cell, none, "red".toList⟩]⟩, written) := by
  with_unfolding_all rfl

/-- The frame is blessed and captured again. -/
def run : BlessedRun ℚ where
  cfg := cfg nothing
  today := 0
  first := outcome nothing
  world := world
  opts := ⟨none, none⟩
  selection := .update "start".toList
  manifest := ⟨[⟨"start".toList, .cell, none, "red".toList⟩]⟩
  goldens := written
  again := outcome written
  shots := [⟨goldenStep, red, none, none⟩]
  names := by decide
  glanced s hs := by
    rw [mem_singleton.1 hs]
    exact ⟨"red".toList, rfl⟩
  inRange tol h := by cases h
  first_frames := rfl
  blessed := bless_outcome
  again_frames := rfl
  again_steps := rfl

theorem blessing_agrees_run : LibraryLaws ℚ ∧
    (([run].map (fun run => run.reported.map ScenarioReport.status) =
        [run].map (fun run => run.rejudged.map ScenarioReport.status) ∧
      exitCode ([run].flatMap BlessedRun.reported) =
        exitCode ([run].flatMap BlessedRun.rejudged)) ↔ ∀ r ∈ [run], r.Lasts) :=
  ⟨libraryLaws, blessing_agrees libraryLaws [run]⟩

/-- The frame is reported as passed, and fails when it is captured again. -/
theorem passed_then_fails :
    ¬ ∀ runs : List (BlessedRun ℚ),
      runs.map (fun run => run.reported.map ScenarioReport.status) =
          runs.map (fun run => run.rejudged.map ScenarioReport.status) ∧
        exitCode (runs.flatMap BlessedRun.reported) =
          exitCode (runs.flatMap BlessedRun.rejudged) := by
  intro hclaim
  have hexit := (hclaim [run]).2
  revert hexit
  with_unfolding_all decide

end Unportable

end Shux.Gate
