/-
# Goldens and their approval

A golden that a bless changed has its line in the approval log, or the operator reads its name.
The line is written after the last file of a golden, and a failure between the first file and the
line leaves a golden that is neither recorded nor named. A failure of the log or of the manifest
is told as if nothing had been blessed. Neither does harm when the files that were written until
then held the same before.

So the account is true exactly when a failure comes before the first change that it would hide:
the failed write of a file before its golden changed, a failure of the log or of the manifest
before any golden of the batch did.
-/

import Shux.Gate.Agree

namespace Shux.Gate

open Vt (FrameEnvelope)
open List Artifacts

/-- The goldens that a refusal names. The text of a failed write names at most the file that was
not written. -/
def Refusal.named : Refusal → List Str
  | .badCapture frame _ | .encodePng frame _ | .serialize frame _ => [frame]
  | .partially why written => why.named ++ written
  | _ => []

/-- The goldens that the message of a bless names. -/
def BlessOutcome.named : BlessOutcome → List Str
  | .refused why => why.named
  | _ => []

/-- An error is told with the words that no golden was blessed. -/
def BlessOutcome.deniesBless : BlessOutcome → Bool
  | .error _ => true
  | _ => false

/-- Every golden that changed has its line in the log or is named to the operator, who is not told
that no golden was blessed when one changed. -/
structure Accounted (goldens goldens' : Goldens) (approved : List Str) (told : BlessOutcome) :
    Prop where
  recorded : ∀ name, ¬ goldens.SameFor goldens' name → name ∈ approved ∨ name ∈ told.named
  admitted : told.deniesBless = true → ∀ name, goldens.SameFor goldens' name

def okay {ε α : Type} (r : Except ε α) : Bool :=
  match r with
  | .ok _ => true
  | .error _ => false

section

variable {R : Type} [Artifacts R]

/-- The sidecar of a frame with a picture. -/
def picturedFp (opts : BlessOptions R) (f : FrameOutcome R) (img : RgbaImage) (png : Bytes) :
    Fingerprint R :=
  { blessedFp f opts.tol with
    rgbaSha256 := some (rgbaSha256 R img)
    pngSha256 := some (pngSha256 R png) }

/-- The picture that a bless writes for a frame. -/
def newPicture (f : FrameOutcome R) : Option Bytes :=
  match fromCanonicalJson R f.liveCaptureJson with
  | .error _ => none
  | .ok env => (encodePng R (renderEnvelope R env)).toOption

/-- The sidecar that a bless writes for a frame. -/
def newSidecar (opts : BlessOptions R) (f : FrameOutcome R) : Option Str :=
  match fromCanonicalJson R f.liveCaptureJson with
  | .error _ => none
  | .ok env =>
    if f.tier = .cell then (fingerprintToJson (blessedFp f opts.tol)).toOption
    else
      match encodePng R (renderEnvelope R env) with
      | .error _ => none
      | .ok png => (fingerprintToJson (picturedFp opts f (renderEnvelope R env) png)).toOption

/-- The files that a bless writes for a frame, in order, when no write fails. -/
def blessFiles (opts : BlessOptions R) (f : FrameOutcome R) : List Artifact :=
  (if f.tier = .cell ∨ (newPicture f).isNone then [] else [.baseline]) ++
    if (newSidecar opts f).isNone then [] else [.capture, .fingerprint]

/-- Write one of the files. -/
def put (opts : BlessOptions R) (f : FrameOutcome R) (goldens : Goldens) : Artifact → Goldens
  | .baseline =>
    { goldens with baselines := goldens.baselines.insert (f.name, osArch R) (newPicture f) }
  | .capture =>
    { goldens with captures := goldens.captures.insert f.name (some f.liveCaptureJson) }
  | .fingerprint =>
    { goldens with fingerprints := goldens.fingerprints.insert f.name (newSidecar opts f) }

/-- A file holds already what a bless writes there. -/
def Holds (opts : BlessOptions R) (f : FrameOutcome R) (goldens : Goldens) : Artifact → Prop
  | .baseline => goldens.baselines.get (f.name, osArch R) = some (newPicture f)
  | .capture => goldens.captures.get f.name = some (some f.liveCaptureJson)
  | .fingerprint => goldens.fingerprints.get f.name = some (newSidecar opts f)

section

variable (opts : BlessOptions R) (f : FrameOutcome R) (files : List Artifact) (goldens : Goldens)

theorem captures_foldl_put (name : Str) : (files.foldl (put opts f) goldens).captures.get name =
    if name = f.name ∧ .capture ∈ files then some (some f.liveCaptureJson)
    else goldens.captures.get name := by
  induction files generalizing goldens with
  | nil => simp
  | cons a files ih =>
    rw [foldl_cons, ih]
    cases a <;> by_cases hname : name = f.name <;> simp [put, FinMap.get_insert, hname]

theorem fingerprints_foldl_put (name : Str) :
    (files.foldl (put opts f) goldens).fingerprints.get name =
      if name = f.name ∧ .fingerprint ∈ files then some (newSidecar opts f)
      else goldens.fingerprints.get name := by
  induction files generalizing goldens with
  | nil => simp
  | cons a files ih =>
    rw [foldl_cons, ih]
    cases a <;> by_cases hname : name = f.name <;> simp [put, FinMap.get_insert, hname]

theorem baselines_foldl_put (name os : Str) :
    (files.foldl (put opts f) goldens).baselines.get (name, os) =
      if (name = f.name ∧ os = osArch R) ∧ .baseline ∈ files then some (newPicture f)
      else goldens.baselines.get (name, os) := by
  induction files generalizing goldens with
  | nil => simp
  | cons a files ih =>
    rw [foldl_cons, ih]
    cases a <;> by_cases hname : name = f.name <;> by_cases hos : os = osArch R <;>
      simp [put, FinMap.get_insert, hname, hos]

/-- The files of other frames are left alone. -/
theorem sameFor_foldl_put_of_ne {name : Str} (hname : name ≠ f.name) :
    goldens.SameFor (files.foldl (put opts f) goldens) name where
  captures := by rw [captures_foldl_put, if_neg fun h => hname h.1]
  fingerprints := by rw [fingerprints_foldl_put, if_neg fun h => hname h.1]
  baselines os := by rw [baselines_foldl_put, if_neg fun h => hname h.1.1]

/-- A golden stays as it is when its files hold what is written there. -/
theorem sameFor_foldl_put :
    goldens.SameFor (files.foldl (put opts f) goldens) f.name ↔
      ∀ artifact ∈ files, Holds opts f goldens artifact := by
  constructor
  · intro hsame artifact hartifact
    cases artifact with
    | baseline =>
      have hbaseline := hsame.baselines (osArch R)
      rw [baselines_foldl_put, if_pos ⟨⟨rfl, rfl⟩, hartifact⟩] at hbaseline
      exact hbaseline.symm
    | capture =>
      have hcapture := hsame.captures
      rw [captures_foldl_put, if_pos ⟨rfl, hartifact⟩] at hcapture
      exact hcapture.symm
    | fingerprint =>
      have hfingerprint := hsame.fingerprints
      rw [fingerprints_foldl_put, if_pos ⟨rfl, hartifact⟩] at hfingerprint
      exact hfingerprint.symm
  · intro hholds
    refine ⟨?_, ?_, fun os => ?_⟩
    · rw [captures_foldl_put]
      split_ifs with h
      · exact (hholds _ h.2).symm
      · rfl
    · rw [fingerprints_foldl_put]
      split_ifs with h
      · exact (hholds _ h.2).symm
      · rfl
    · rw [baselines_foldl_put]
      split_ifs with h
      · rw [h.1.2]
        exact (hholds _ h.2).symm
      · rfl

end

section

variable (world : BlessWorld) (opts : BlessOptions R) (f : FrameOutcome R) (goldens : Goldens)

/-- The files of a golden that are written before a write fails. -/
def goldenWrites (f : FrameOutcome R) : List Artifact :=
  (blessFiles opts f).takeWhile fun artifact => okay (world.write f.name artifact)

/-- No write of a file of a golden fails. -/
def writesAll (f : FrameOutcome R) : Bool :=
  (blessFiles opts f).all fun artifact => okay (world.write f.name artifact)

/-- What the bless of one frame returns: it fails with a write, which names no other golden, or
where the frame has no sidecar, which names the frame. -/
inductive GoldenEnd (f : FrameOutcome R) : Except Refusal Str → Prop
  | unwritten {why : Refusal} (writes : writesAll world opts f = false) (names : why.named = []) :
    GoldenEnd f (.error why)
  | unmade {why : Refusal} (writes : writesAll world opts f = true)
    (sidecar : newSidecar opts f = none) (names : why.named = [f.name]) : GoldenEnd f (.error why)
  | whole {sha : Str} (writes : writesAll world opts f = true)
    (sidecar : (newSidecar opts f).isNone = false) : GoldenEnd f (.ok sha)

/-- The text files are written after a picture, if there is one. -/
theorem writeGolden_spec {fp : Fingerprint R} (before : List Artifact)
    (hbefore : ∀ artifact ∈ before, okay (world.write f.name artifact) = true)
    (hnew : newSidecar opts f = (fingerprintToJson fp).toOption)
    (hfiles : blessFiles opts f =
      before ++ if (newSidecar opts f).isNone then [] else [.capture, .fingerprint]) :
    (writeGolden world f fp (before.foldl (put opts f) goldens)).2 =
        (goldenWrites world opts f).foldl (put opts f) goldens ∧
      GoldenEnd world opts f (writeGolden world f fp (before.foldl (put opts f) goldens)).1 := by
  have hwrites : writesAll world opts f =
      (if (newSidecar opts f).isNone then [] else [Artifact.capture, .fingerprint]).all
        fun artifact => okay (world.write f.name artifact) := by
    rw [writesAll, hfiles, all_append, all_eq_true.mpr hbefore, Bool.true_and]
  have hgoldens : (goldenWrites world opts f).foldl (put opts f) goldens =
      ((if (newSidecar opts f).isNone then [] else [Artifact.capture, .fingerprint]).takeWhile
        fun artifact => okay (world.write f.name artifact)).foldl (put opts f)
          (before.foldl (put opts f) goldens) := by
    rw [goldenWrites, hfiles, takeWhile_append_of_pos hbefore, foldl_append]
  rw [hgoldens]
  unfold writeGolden
  cases hjson : fingerprintToJson fp with
  | error e =>
    rw [hjson, Except.toOption] at hnew
    rw [hnew] at hwrites
    exact ⟨by rw [hnew]; rfl, .unmade hwrites hnew rfl⟩
  | ok sidecar =>
    rw [hjson, Except.toOption] at hnew
    simp only [hnew, Option.isNone_some, Bool.false_eq_true, if_false] at hwrites ⊢
    cases hcapture : world.write f.name .capture with
    | error e =>
      refine ⟨by simp [hcapture, okay], .unwritten ?_ rfl⟩
      simp [hwrites, hcapture, okay]
    | ok written =>
      cases hfp : world.write f.name .fingerprint with
      | error e =>
        refine ⟨by simp [hcapture, hfp, okay, put], .unwritten ?_ rfl⟩
        simp [hwrites, hfp, okay]
      | ok written =>
        refine ⟨by simp [hcapture, hfp, okay, put, hnew], .whole ?_ (by rw [hnew]; rfl)⟩
        simp [hwrites, hcapture, hfp, okay]

/-- With nothing to write, a bless fails before it starts. -/
theorem goldenEnd_unmade {why : Refusal} (hsidecar : newSidecar opts f = none)
    (hpicture : f.tier = .cell ∨ newPicture f = none) (hnames : why.named = [f.name]) :
    goldens = (goldenWrites world opts f).foldl (put opts f) goldens ∧
      GoldenEnd world opts f (.error why) := by
  have hfiles : blessFiles opts f = [] := by
    rcases hpicture with h | h <;> simp [blessFiles, hsidecar, h]
  have hwrites : writesAll world opts f = true := by rw [writesAll, hfiles]; rfl
  exact ⟨by rw [goldenWrites, hfiles]; rfl, .unmade hwrites hsidecar hnames⟩

/-- A bless of one frame writes its files in order, up to the first write that fails. -/
theorem blessOne_spec :
    (blessOne world opts f goldens).2 = (goldenWrites world opts f).foldl (put opts f) goldens ∧
      GoldenEnd world opts f (blessOne world opts f goldens).1 := by
  unfold blessOne
  cases henv : fromCanonicalJson R f.liveCaptureJson with
  | error e =>
    exact goldenEnd_unmade world opts f goldens (by simp [newSidecar, henv])
      (Or.inr (by simp [newPicture, henv])) rfl
  | ok env =>
    by_cases htier : f.tier = .cell
    · simp only [if_pos htier]
      refine writeGolden_spec world opts f goldens [] ?_ ?_ ?_
      · exact fun _ h => absurd h not_mem_nil
      · simp [newSidecar, henv, htier]
      · simp [blessFiles, htier]
    · simp only [if_neg htier]
      cases hpng : encodePng R (renderEnvelope R env) with
      | error e =>
        exact goldenEnd_unmade world opts f goldens (by simp [newSidecar, henv, htier, hpng])
          (Or.inr (by simp [newPicture, henv, hpng, Except.toOption])) rfl
      | ok png =>
        have hpicture : newPicture f = some png := by
          simp [newPicture, henv, hpng, Except.toOption]
        have hfiles : blessFiles opts f = [Artifact.baseline] ++
            if (newSidecar opts f).isNone then [] else [.capture, .fingerprint] := by
          simp [blessFiles, htier, hpicture]
        cases hbaseline : world.write f.name .baseline with
        | error e =>
          have hfails : okay (world.write f.name .baseline) = false := by rw [hbaseline]; rfl
          rw [goldenWrites, hfiles, singleton_append, takeWhile_cons_of_neg (by simp [hfails])]
          refine ⟨rfl, .unwritten ?_ rfl⟩
          rw [writesAll, hfiles, singleton_append, all_cons, hfails, Bool.false_and]
        | ok written =>
          have hput : put opts f goldens .baseline = { goldens with
              baselines := goldens.baselines.insert (f.name, osArch R) (some png) } := by
            rw [put, hpicture]
          dsimp only
          rw [← hput]
          refine writeGolden_spec world opts f goldens [.baseline] ?_ ?_ hfiles
          · rw [forall_mem_singleton, hbaseline]
            rfl
          · simp [newSidecar, henv, htier, hpng, picturedFp]

end

section

variable (world : BlessWorld) (opts : BlessOptions R) (goldens : Goldens)

/-- The frames of a batch with a line in the approval log. -/
def batchApproved : List (FrameOutcome R) → Goldens → List Str
  | [], _ => []
  | f :: rest, goldens =>
    match blessOne world opts f goldens with
    | (.error _, _) => []
    | (.ok _, goldens) =>
      match world.record f.name with
      | .error _ => []
      | .ok _ => f.name :: batchApproved rest goldens

/-- The files that are written for a frame hold the same before. -/
def Kept (f : FrameOutcome R) : Prop :=
  ∀ artifact ∈ goldenWrites world opts f, Holds opts f goldens artifact

/-- What fails hides no change: a write none of its golden, the log and the manifest none of the
batch. Some goldens of the batch are written already. -/
def FailsEarly (written : List (FrameOutcome R)) : List (FrameOutcome R) → Prop
  | [] =>
    match world.writeManifest with
    | .error _ => ∀ f ∈ written, Kept world opts goldens f
    | .ok _ => True
  | f :: rest =>
    if writesAll world opts f = false then Kept world opts goldens f
    else if (newSidecar opts f).isNone then True
    else
      match world.record f.name with
      | .error _ => ∀ g ∈ written ++ [f], Kept world opts goldens g
      | .ok _ => FailsEarly (written ++ [f]) rest

variable {world opts goldens}

theorem holds_congr {now : Goldens} {f : FrameOutcome R} (h : goldens.SameFor now f.name)
    {artifact : Artifact} : Holds opts f now artifact ↔ Holds opts f goldens artifact := by
  cases artifact with
  | baseline => rw [Holds, Holds, h.baselines]
  | capture => rw [Holds, Holds, h.captures]
  | fingerprint => rw [Holds, Holds, h.fingerprints]

/-- A golden that the batch has not come to stays as it is exactly when it is kept. -/
theorem sameFor_goldenWrites {now : Goldens} {f : FrameOutcome R}
    (hfresh : goldens.SameFor now f.name) :
    goldens.SameFor ((goldenWrites world opts f).foldl (put opts f) now) f.name ↔
      Kept world opts goldens f := by
  have hkept : now.SameFor ((goldenWrites world opts f).foldl (put opts f) now) f.name ↔
      Kept world opts goldens f := by
    rw [sameFor_foldl_put]
    exact forall₂_congr fun artifact _ => holds_congr hfresh
  rw [← hkept]
  exact ⟨hfresh.symm.trans, hfresh.trans⟩

/-- A batch that is underway: what is written by now and what comes. -/
structure Underway (world : BlessWorld) (opts : BlessOptions R) (goldens now : Goldens)
    (approved : List Str) (written rest : List (FrameOutcome R)) : Prop where
  fresh : ∀ f ∈ rest, goldens.SameFor now f.name
  recorded : ∀ name, ¬ goldens.SameFor now name → name ∈ approved
  unchanged : (∀ name, goldens.SameFor now name) ↔ ∀ f ∈ written, Kept world opts goldens f

section

variable {now : Goldens} {approved : List Str} {written rest : List (FrameOutcome R)}
  {f : FrameOutcome R} (h : Underway world opts goldens now approved written (f :: rest))
include h

/-- After one more golden all is unchanged exactly when this golden and those before are kept. -/
theorem Underway.unchanged_append :
    (∀ name, goldens.SameFor ((goldenWrites world opts f).foldl (put opts f) now) name) ↔
      ∀ g ∈ written ++ [f], Kept world opts goldens g := by
  rw [forall_mem_append, ← h.unchanged, forall_mem_singleton,
    ← sameFor_goldenWrites (h.fresh f mem_cons_self)]
  refine ⟨fun hsame => ⟨fun name => ?_, hsame f.name⟩, fun hsame name => ?_⟩
  · by_cases hname : name = f.name
    · rw [hname]
      exact h.fresh f mem_cons_self
    · exact (hsame name).trans (sameFor_foldl_put_of_ne opts f _ now hname).symm
  · by_cases hname : name = f.name
    · rw [hname]
      exact hsame.2
    · exact (hsame.1 name).trans (sameFor_foldl_put_of_ne opts f _ now hname)

/-- What has changed after one more golden is recorded, or is this golden. -/
theorem Underway.recorded_append (name : Str)
    (hchanged : ¬ goldens.SameFor ((goldenWrites world opts f).foldl (put opts f) now) name) :
    name ∈ approved ∨ name = f.name ∧ ¬ Kept world opts goldens f := by
  by_cases hname : name = f.name
  · rw [hname, sameFor_goldenWrites (h.fresh f mem_cons_self)] at hchanged
    exact Or.inr ⟨hname, hchanged⟩
  · exact Or.inl (h.recorded name fun hsame =>
      hchanged (hsame.trans (sameFor_foldl_put_of_ne opts f _ now hname)))

/-- A golden that is written and recorded. -/
theorem Underway.step (hname : f.name ∉ rest.map FrameOutcome.name) :
    Underway world opts goldens ((goldenWrites world opts f).foldl (put opts f) now)
      (approved ++ [f.name]) (written ++ [f]) rest where
  fresh g hg := by
    have hne : g.name ≠ f.name := fun heq => hname (heq ▸ mem_map_of_mem hg)
    exact (h.fresh g (mem_cons_of_mem f hg)).trans (sameFor_foldl_put_of_ne opts f _ now hne)
  recorded name hchanged := by
    rw [mem_append, mem_singleton]
    exact (h.recorded_append name hchanged).imp_right And.left
  unchanged := h.unchanged_append

end

/-- A refusal after some goldens of a batch. -/
def midway (why : Refusal) (entries : List BlessedEntry) : BlessOutcome :=
  .refused (if entries.isEmpty then why else .partially why (entries.map BlessedEntry.name))

omit [Artifacts R] in
/-- It names those that are written and recorded. -/
theorem named_midway (why : Refusal) (entries : List BlessedEntry) :
    (midway why entries).named = why.named ++ entries.map BlessedEntry.name := by
  cases entries with
  | nil => exact (append_nil _).symm
  | cons entry entries => rfl

/-- A golden whose bless failed is accounted for when the refusal names it, or when it is kept. -/
theorem Underway.accounted_midway {now : Goldens} {entries : List BlessedEntry}
    {written rest : List (FrameOutcome R)} {f : FrameOutcome R} {why : Refusal}
    (h : Underway world opts goldens now (entries.map BlessedEntry.name) written (f :: rest))
    (hfresh : f.name ∉ entries.map BlessedEntry.name) :
    Accounted goldens ((goldenWrites world opts f).foldl (put opts f) now)
        (entries.map BlessedEntry.name ++ []) (midway why entries) ↔
      f.name ∈ why.named ∨ Kept world opts goldens f := by
  rw [append_nil]
  refine ⟨fun haccounted => ?_, fun hfine => ⟨fun name hchanged => ?_, fun hdenies => ?_⟩⟩
  · refine or_iff_not_imp_right.mpr fun hchanged => ?_
    rw [← sameFor_goldenWrites (h.fresh f mem_cons_self)] at hchanged
    rcases haccounted.recorded f.name hchanged with happroved | hnamed
    · exact absurd happroved hfresh
    · rw [named_midway, mem_append] at hnamed
      exact hnamed.resolve_right hfresh
  · rcases h.recorded_append name hchanged with happroved | ⟨rfl, hlost⟩
    · exact Or.inl happroved
    · rw [named_midway]
      exact Or.inr (mem_append_left _ (hfine.resolve_right hlost))
  · cases hdenies

omit [Artifacts R] in
/-- An error is accounted for when all is unchanged. -/
theorem accounted_error {now : Goldens} {approved : List Str} {why : Str} {p : Prop}
    (hunchanged : (∀ name, goldens.SameFor now name) ↔ p) :
    Accounted goldens now approved (.error why) ↔ p := by
  rw [← hunchanged]
  refine ⟨fun haccounted => haccounted.admitted rfl, fun hsame => ?_⟩
  exact ⟨fun name hchanged => absurd (hsame name) hchanged, fun _ => hsame⟩

/-- The account of a batch that is underway. -/
theorem blessAll_accounted (frames : List (FrameOutcome R)) (entries : List BlessedEntry)
    (now : Goldens) (written : List (FrameOutcome R))
    (hunderway : Underway world opts goldens now (entries.map BlessedEntry.name) written frames)
    (hnames : (entries.map BlessedEntry.name ++ frames.map FrameOutcome.name).Nodup) :
    Accounted goldens (blessAll world opts frames entries now).2
        (entries.map BlessedEntry.name ++ batchApproved world opts frames now)
        (blessAll world opts frames entries now).1 ↔
      FailsEarly world opts goldens written frames := by
  induction frames generalizing entries now written with
  | nil =>
    rw [blessAll, FailsEarly]
    cases world.writeManifest with
    | error e => exact accounted_error hunderway.unchanged
    | ok made =>
      refine iff_of_true ⟨fun name hchanged => ?_, fun hdenies => ?_⟩ trivial
      · exact Or.inl (mem_append_left _ (hunderway.recorded name hchanged))
      · cases hdenies
  | cons f rest ih =>
    obtain ⟨hgoldens, hend⟩ := blessOne_spec world opts f now
    have hnodup := nodup_append.1 hnames
    have hfresh : f.name ∉ entries.map BlessedEntry.name := fun hmem =>
      hnodup.2.2 _ hmem _ mem_cons_self rfl
    rw [blessAll, batchApproved, FailsEarly]
    generalize blessOne world opts f now = result at hgoldens hend ⊢
    obtain ⟨result, now'⟩ := result
    dsimp only at hgoldens hend
    subst hgoldens
    cases hend with
    | unwritten writes names =>
      rw [if_pos writes]
      refine (hunderway.accounted_midway hfresh).trans (or_iff_right ?_)
      rw [names]
      exact not_mem_nil
    | unmade writes sidecar names =>
      rw [if_neg (by simp [writes]), if_pos (by rw [sidecar]; rfl)]
      refine iff_of_true ((hunderway.accounted_midway hfresh).mpr (Or.inl ?_)) trivial
      rw [names]
      exact mem_singleton_self _
    | @whole sha writes sidecar =>
      rw [if_neg (by simp [writes]), if_neg (by simp [sidecar])]
      cases hrecord : world.record f.name with
      | error e => exact accounted_error hunderway.unchanged_append
      | ok recorded =>
        have hrest := ih (entries ++ [⟨f.name, f.tier, readOldFingerprint R now f.name, sha⟩]) _ _
          (by simpa using hunderway.step (nodup_cons.1 hnodup.2.1).1) (by simpa using hnames)
        rw [map_append, append_assoc] at hrest
        exact hrest

end

section

variable (world : BlessWorld) (opts : BlessOptions R) (outcome : RunOutcome R) (targets : List Nat)

/-- The frames that a bless is for. -/
def targetFrames : List (FrameOutcome R) := targets.filterMap fun i => outcome.frames[i]?

/-- No guard refuses the batch, and the golden directory is there. -/
def passesGuards : Bool :=
  !world.isCi && !targets.isEmpty &&
    (scanHits world opts outcome.scenarioName (targetFrames outcome targets)).isEmpty &&
    !world.treeIsDirty && okay world.prepare

/-- The frames that `writeTargets` records in the approval log. -/
def targetApproved (goldens : Goldens) : List Str :=
  if passesGuards world opts outcome targets then
    batchApproved world opts (targetFrames outcome targets) goldens
  else []

variable {world opts outcome targets}

theorem writeTargets_of_passes (h : passesGuards world opts outcome targets = true)
    (goldens : Goldens) :
    writeTargets world opts outcome targets goldens =
      blessAll world opts (targetFrames outcome targets) [] goldens := by
  simp only [passesGuards, Bool.and_eq_true, Bool.not_eq_true'] at h
  obtain ⟨⟨⟨⟨hci, hempty⟩, hhits⟩, hdirty⟩, hprepare⟩ := h
  have hfound : (!(scanHits world opts outcome.scenarioName
      (targets.filterMap fun i => outcome.frames[i]?)).isEmpty) = false := by
    rw [Bool.not_eq_false']
    exact hhits
  rw [writeTargets, if_neg (by simp [hci]), if_neg (by simp [hempty])]
  simp only [hfound, Bool.false_eq_true, if_false, hdirty]
  cases hroot : world.prepare with
  | error e => rw [hroot] at hprepare; cases hprepare
  | ok root => rfl

/-- A batch that a guard refuses leaves the goldens alone. -/
theorem writeTargets_of_not_passes (h : passesGuards world opts outcome targets = false)
    (goldens : Goldens) : (writeTargets world opts outcome targets goldens).2 = goldens := by
  rw [passesGuards] at h
  unfold writeTargets
  dsimp only
  split
  · rfl
  · next hci =>
    split
    · rfl
    · next hempty =>
      split
      · rfl
      · next hhits =>
        split
        · rfl
        · next hdirty =>
          cases hroot : world.prepare with
          | error e => rfl
          | ok root =>
            simp only [Bool.not_eq_true, Bool.not_eq_false'] at hci hempty hhits hdirty
            have hhits' : (scanHits world opts outcome.scenarioName
                (targetFrames outcome targets)).isEmpty = true := hhits
            simp [hci, hempty, hhits', hdirty, hroot, okay] at h

/-- Every golden that changed has its line in the approval log or is named to the operator, and a
bless that changed one is not told as one that blessed none, exactly when what fails hides no
change. -/
theorem writeTargets_accounted
    (hnames : ((targetFrames outcome targets).map FrameOutcome.name).Nodup) (goldens : Goldens) :
    Accounted goldens (writeTargets world opts outcome targets goldens).2
        (targetApproved world opts outcome targets goldens)
        (writeTargets world opts outcome targets goldens).1 ↔
      (passesGuards world opts outcome targets = true →
        FailsEarly world opts goldens [] (targetFrames outcome targets)) := by
  rw [targetApproved]
  cases hpasses : passesGuards world opts outcome targets with
  | false =>
    rw [writeTargets_of_not_passes hpasses]
    refine iff_of_true ⟨fun name hchanged => ?_, fun _ name => .refl goldens name⟩ fun h => ?_
    · exact absurd (.refl goldens name) hchanged
    · cases h
  | true =>
    have hunderway : Underway world opts goldens goldens [] [] (targetFrames outcome targets) :=
      { fresh := fun f _ => .refl goldens f.name
        recorded := fun name hchanged => absurd (.refl goldens name) hchanged
        unchanged := iff_of_true (fun name => .refl goldens name) (forall_mem_nil _) }
    rw [if_pos rfl, writeTargets_of_passes hpasses, forall_prop_of_true rfl]
    exact blessAll_accounted _ [] goldens [] hunderway (by simpa using hnames)

end

end

namespace Unportable

open Gate.Sample

/-- The approval log cannot be written. -/
def fullDisk : BlessWorld := { world with record := fun _ => .error "no space left".toList }

/-- A sidecar cannot be written. -/
def lockedSidecar : BlessWorld :=
  { world with
    write := fun _ artifact =>
      if artifact = .fingerprint then .error "permission denied".toList else .ok () }

/-- The capture of the frame is there, without a sidecar. -/
def unpinned : Goldens := { written with fingerprints := ∅ }

/-- The capture is written again as it was, the sidecar is not, and no golden has changed. -/
theorem writeTargets_accounted_kept :
    ((targetFrames (outcome unpinned) [0]).map FrameOutcome.name).Nodup ∧
      passesGuards lockedSidecar ⟨none, none⟩ (outcome unpinned) [0] = true ∧
      (targetFrames (outcome unpinned) [0]).map (goldenWrites lockedSidecar ⟨none, none⟩) =
        [[.capture]] ∧
      Accounted unpinned (writeTargets lockedSidecar ⟨none, none⟩ (outcome unpinned) [0] unpinned).2
        (targetApproved lockedSidecar ⟨none, none⟩ (outcome unpinned) [0] unpinned)
        (writeTargets lockedSidecar ⟨none, none⟩ (outcome unpinned) [0] unpinned).1 := by
  have hnames : ((targetFrames (outcome unpinned) [0]).map FrameOutcome.name).Nodup := by
    with_unfolding_all decide
  refine ⟨hnames, by with_unfolding_all decide, by with_unfolding_all decide, ?_⟩
  refine (writeTargets_accounted hnames unpinned).mpr fun _ => ?_
  have hframes : targetFrames (outcome unpinned) [0] =
      [(captureAndCompare (cfg unpinned) goldenStep red).1] := rfl
  have hwrites : goldenWrites lockedSidecar ⟨none, none⟩
      (captureAndCompare (R := ℚ) (cfg unpinned) goldenStep red).1 = [.capture] := by
    with_unfolding_all decide
  rw [hframes, FailsEarly, if_pos (by with_unfolding_all decide)]
  intro artifact hartifact
  rw [hwrites, mem_singleton] at hartifact
  subst hartifact
  with_unfolding_all rfl

/-- Both files of a golden are written, its line is not, and the operator reads that no golden was
blessed. -/
theorem writeTargets_denied :
    let told := (writeTargets fullDisk ⟨none, none⟩ (outcome nothing) [0] nothing).1
    let goldens := (writeTargets fullDisk ⟨none, none⟩ (outcome nothing) [0] nothing).2
    let approved := targetApproved fullDisk ⟨none, none⟩ (outcome nothing) [0] nothing
    goldens.captures.get "start".toList = some (some "red".toList) ∧
      told.deniesBless = true ∧ approved = [] ∧ ¬ Accounted nothing goldens approved told := by
  have hcapture : (writeTargets fullDisk ⟨none, none⟩ (outcome nothing) [0] nothing).2.captures.get
      "start".toList = some (some "red".toList) := by
    with_unfolding_all decide
  have hdenies : (writeTargets fullDisk ⟨none, none⟩ (outcome nothing) [0] nothing).1.deniesBless =
      true := by
    with_unfolding_all decide
  refine ⟨hcapture, hdenies, by with_unfolding_all decide, fun haccounted => ?_⟩
  have hsame := (haccounted.admitted hdenies "start".toList).captures
  rw [hcapture] at hsame
  cases hsame

end Unportable

end Shux.Gate
