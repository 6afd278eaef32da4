/-
# Blessing that stops halfway

A golden is up to three files, written one after the other, and the sidecar pins the other two.
Stopped in between, a bless leaves new files under the sidecar that was there before. The
comparison trusts them when that sidecar is of this build and pins them. It then judges as the
files before the bless would when the sidecar pinned the same content there, and it may judge as
the whole bless when the new sidecar lets pass whatever the old one does. In no other case does it
judge as one of the two.

A golden that is whole, or one without a sidecar, pins no new file that it does not hold already.
-/

import Shux.Gate.Approval
import Shux.Lib.Utf8

namespace Shux.Gate

open Vt (Crates FrameEnvelope CellGridView)
open Artifacts

/-- What the readable files of a golden hold. -/
structure GoldenState (R : Type) where
  picture : Option Bytes
  capture : Option FrameEnvelope
  sidecar : Option (Fingerprint R)

/-- Two sidecars of one build and configuration, whatever their tolerances and pins. -/
structure Fingerprint.SameBuild {R : Type} (a b : Fingerprint R) : Prop where
  fpSchema : a.fpSchema = b.fpSchema
  schema : a.schema = b.schema
  rendererFormatVersion : a.rendererFormatVersion = b.rendererFormatVersion
  rasterFontFingerprint : a.rasterFontFingerprint = b.rasterFontFingerprint
  unicodeWidthVer : a.unicodeWidthVer = b.unicodeWidthVer
  tol : a.tol = b.tol
  maskHash : a.maskHash = b.maskHash
  platform : a.platform = b.platform

theorem Fingerprint.SameBuild.symm {R : Type} {a b : Fingerprint R} (h : a.SameBuild b) :
    b.SameBuild a :=
  ⟨h.fpSchema.symm, h.schema.symm, h.rendererFormatVersion.symm, h.rasterFontFingerprint.symm,
    h.unicodeWidthVer.symm, h.tol.symm, h.maskHash.symm, h.platform.symm⟩

theorem Fingerprint.SameBuild.trans {R : Type} {a b c : Fingerprint R} (h : a.SameBuild b)
    (h' : b.SameBuild c) : a.SameBuild c :=
  ⟨h.fpSchema.trans h'.fpSchema, h.schema.trans h'.schema,
    h.rendererFormatVersion.trans h'.rendererFormatVersion,
    h.rasterFontFingerprint.trans h'.rasterFontFingerprint,
    h.unicodeWidthVer.trans h'.unicodeWidthVer, h.tol.trans h'.tol, h.maskHash.trans h'.maskHash,
    h.platform.trans h'.platform⟩

section

variable {R : Type} [Artifacts R]

variable (R) in
/-- The files of a frame's golden, on this platform. -/
def stateOf (goldens : Goldens) (name : Str) : GoldenState R where
  picture := (goldens.baselines.get (name, osArch R)).join
  capture := (goldens.captures.get name).join.bind fun text => (fromCanonicalJson R text).toOption
  sidecar := (goldens.fingerprints.get name).join.bind fun text =>
    (fingerprintFromJson (R := R) text).toOption

/-- The files of a golden after a bless has written some of them. -/
def GoldenState.after (opts : BlessOptions R) (f : FrameOutcome R) (old : GoldenState R)
    (files : List Artifact) : GoldenState R where
  picture := if .baseline ∈ files then newPicture f else old.picture
  capture := if .capture ∈ files then (fromCanonicalJson R f.liveCaptureJson).toOption
    else old.capture
  sidecar :=
    if .fingerprint ∈ files then
      (newSidecar opts f).bind fun text => (fingerprintFromJson (R := R) text).toOption
    else old.sidecar

theorem stateOf_foldl_put (opts : BlessOptions R) (f : FrameOutcome R) (goldens : Goldens)
    (files : List Artifact) : stateOf R (files.foldl (put opts f) goldens) f.name =
      (stateOf R goldens f.name).after opts f files := by
  unfold stateOf GoldenState.after
  rw [baselines_foldl_put, captures_foldl_put, fingerprints_foldl_put]
  simp only [true_and]
  congr 1 <;> split_ifs <;> rfl

/-- A picture has the size of a frame. -/
def SizedAs (png : Bytes) (env : FrameEnvelope) : Prop :=
  ∀ img, decodePng R png = .ok img →
    img.width = (renderEnvelope R env).width ∧ img.height = (renderEnvelope R env).height

/-- The sidecar pins the files that are there, a picture only at a tier that has one. -/
def GoldenState.Pinned (m : GoldenState R) : Prop :=
  ∃ sidecar env, m.sidecar = some sidecar ∧ m.capture = some env ∧
    sidecar.captureSha256 = captureSha256 R env ∧
    (sidecar.tol ≠ .cell → ∃ png, m.picture = some png ∧ pinOk R sidecar.tol sidecar png = true ∧
      (sidecar.tol = .pixel → SizedAs (R := R) png env))

/-- Two goldens hold the same, as far as the tier of their sidecar reads them. -/
def GoldenState.Alike (m old : GoldenState R) : Prop :=
  m.capture = old.capture ∧ m.sidecar = old.sidecar ∧
    ∀ sidecar, m.sidecar = some sidecar → sidecar.tol ≠ .cell →
      ∃ png png', m.picture = some png ∧ old.picture = some png' ∧
        (sidecar.tol = .exact → png = png') ∧
        (sidecar.tol = .pixel → decodePng R png = decodePng R png')

variable [F64 R]

/-- The sidecar is of this build, at a tier and under a mask policy. -/
def GoldenState.Fits (m : GoldenState R) (tier : Tier) (masks : Vt.MaskSet) : Prop :=
  ∃ sidecar, m.sidecar = some sidecar ∧ sidecar.SameBuild (currentFp tier masks [] [])

variable [Crates]

/-- A frame passes against the files at the tier and under the tolerance of their sidecar. -/
def GoldenState.Passes (m : GoldenState R) (live : FrameEnvelope) : Prop :=
  ∃ sidecar golden verdict, m.sidecar = some sidecar ∧ m.capture = some golden ∧
    evaluateTier sidecar.tol golden live (if sidecar.tol = .cell then none else m.picture)
      sidecar.tolParams = .ok verdict ∧ verdict.status = .pass

/-- Whatever passes against some files passes against others, which are of the same build and
pinned. -/
def GoldenState.YieldsTo (m new : GoldenState R) : Prop :=
  ∀ live, m.Passes live → new.Passes live ∧ new.Pinned ∧
    ∃ a b, new.sidecar = some a ∧ m.sidecar = some b ∧ a.SameBuild b

/-- What a bless leaves when it stops between two writes is not trusted by this build, or holds
what was pinned there before, or lets nothing pass that the whole bless does not. -/
def Settled (opts : BlessOptions R) (f : FrameOutcome R) (old : GoldenState R) : Prop :=
  ∀ files, files <+: blessFiles opts f → files ≠ [] → files ≠ blessFiles opts f →
    (old.after opts f files).Pinned → (∃ tier masks, (old.after opts f files).Fits tier masks) →
      (old.after opts f files).Alike old ∨
        (old.after opts f files).YieldsTo (old.after opts f (blessFiles opts f))

end

section

variable {R : Type} [F64 R] [Crates] [Artifacts R]
variable {sidecar : Fingerprint R} {golden : FrameEnvelope}
variable {png : Option Bytes}

variable (R) in
/-- A frame of the tier is compared as a match. -/
def Matches (goldens : Goldens) (name : Str) (tier : Tier) (live : FrameEnvelope)
    (current : Fingerprint R) : Prop :=
  frameKind (compareFrame (R := R) goldens name tier live current).signal = .match

/-- What makes a match, of the files alone. -/
structure GoldenState.Judged (m : GoldenState R) (tier : Tier) (live : FrameEnvelope)
    (current : Fingerprint R) (golden : FrameEnvelope) (sidecar : Fingerprint R)
    (png : Option Bytes) : Prop where
  hasCapture : m.capture = some golden
  hasSidecar : m.sidecar = some sidecar
  fresh : sidecar.isStaleVs current = false
  pinned : sidecar.captureSha256 = captureSha256 R golden
  picture : (tier = .cell ∧ png = none) ∨
    (tier ≠ .cell ∧ ∃ bytes, m.picture = some bytes ∧ pinOk R tier sidecar bytes = true ∧
      png = some bytes)
  passes : ∃ verdict, evaluateTier tier golden live png sidecar.tolParams = .ok verdict ∧
    verdict.status = .pass

variable {goldens : Goldens} {name : Str} {tier : Tier} {live : FrameEnvelope}
  {current : Fingerprint R}

omit [Crates] in
theorem trustedGolden_eq_ok :
    trustedGolden goldens name current = .ok (golden, sidecar) ↔
      (stateOf R goldens name).capture = some golden ∧
        (stateOf R goldens name).sidecar = some sidecar ∧ sidecar.isStaleVs current = false ∧
        sidecar.captureSha256 = captureSha256 R golden := by
  unfold trustedGolden stateOf
  rcases goldens.captures.get name with - | - | text
  · simp
  · rcases goldens.fingerprints.get name with - | fp <;> simp
  · rcases goldens.fingerprints.get name with - | - | fp
    · simp
    · cases henv : Artifacts.fromCanonicalJson R text <;> simp [henv]
    · cases henv : Artifacts.fromCanonicalJson R text with
      | error e => simp [henv, Except.toOption]
      | ok env =>
        cases hfp : Artifacts.fingerprintFromJson (R := R) fp with
        | error e => simp [henv, hfp, Except.toOption]
        | ok read =>
          simp only [Option.map_some, henv, hfp, Option.join_some, Option.bind_some,
            Except.toOption]
          split_ifs with hbad
          · rw [Bool.or_eq_true, decide_eq_true_eq] at hbad
            refine iff_of_false (by rintro ⟨⟩) fun h => ?_
            obtain ⟨hgolden, hsidecar, hfresh, hpinned⟩ := h
            cases hgolden
            cases hsidecar
            rcases hbad with hbad | hbad
            · rw [hfresh] at hbad
              cases hbad
            · exact hbad hpinned
          · rw [Bool.or_eq_true, decide_eq_true_eq, not_or, Bool.not_eq_true, not_not] at hbad
            simp only [Except.ok.injEq, Prod.mk.injEq, Option.some.injEq]
            refine ⟨?_, fun h => ⟨h.1, h.2.1⟩⟩
            rintro ⟨rfl, rfl⟩
            exact ⟨rfl, rfl, hbad.1, hbad.2⟩

omit [F64 R] [Crates] in
theorem trustedBaseline_eq_ok :
    trustedBaseline goldens name tier sidecar = .ok png ↔
      (tier = .cell ∧ png = none) ∨
        (tier ≠ .cell ∧ ∃ bytes, (stateOf R goldens name).picture = some bytes ∧
          pinOk R tier sidecar bytes = true ∧ png = some bytes) := by
  unfold trustedBaseline stateOf
  by_cases htier : tier = .cell
  · rw [if_pos htier, Except.ok.injEq]
    exact ⟨fun h => Or.inl ⟨htier, h.symm⟩, fun h => (h.resolve_right fun h => h.1 htier).2.symm⟩
  · rw [if_neg htier]
    rcases goldens.baselines.get (name, Artifacts.osArch R) with - | - | bytes
    · simp [htier]
    · simp [htier]
    · simp only [htier, Option.join_some, false_and, false_or, Option.some.injEq, exists_eq_left']
      split_ifs with hpin
      · rw [Except.ok.injEq]
        exact ⟨fun h => ⟨htier, hpin, h.symm⟩, fun h => h.2.2.symm⟩
      · exact iff_of_false nofun fun h => hpin h.2.1

/-- A match is one of the files that are there. -/
theorem matches_iff :
    Matches R goldens name tier live current ↔
      ∃ golden sidecar png,
        (stateOf R goldens name).Judged tier live current golden sidecar png := by
  constructor
  · intro h
    unfold Matches compareFrame at h
    cases hgolden : trustedGolden goldens name current with
    | error kind =>
      simp only [hgolden] at h
      split_ifs at h <;> cases h
    | ok pair =>
      obtain ⟨golden, sidecar⟩ := pair
      cases hpng : trustedBaseline goldens name tier sidecar with
      | error kind =>
        simp only [hgolden, hpng] at h
        split_ifs at h <;> cases h
      | ok png =>
        cases hverdict : evaluateTier tier golden live png sidecar.tolParams with
        | error e =>
          simp only [hgolden, hpng, hverdict] at h
          cases h
        | ok verdict =>
          simp only [hgolden, hpng, hverdict] at h
          obtain ⟨hcapture, hsidecar, hfresh, hpinned⟩ := trustedGolden_eq_ok.1 hgolden
          refine ⟨golden, sidecar, png, hcapture, hsidecar, hfresh, hpinned,
            trustedBaseline_eq_ok.1 hpng, verdict, hverdict, ?_⟩
          by_contra hpass
          rw [if_neg hpass] at h
          split_ifs at h <;> cases h
  · rintro ⟨golden, sidecar, png, hcapture, hsidecar, hfresh, hpinned, hpicture, verdict, hverdict,
      hpass⟩
    have hgolden := trustedGolden_eq_ok.2 ⟨hcapture, hsidecar, hfresh, hpinned⟩
    have hpng := trustedBaseline_eq_ok.2 hpicture
    unfold Matches compareFrame
    simp only [hgolden, hpng, hverdict, hpass]
    rfl

/-- The rasterizer makes pictures of one size from frames of one size. -/
def SizesPictures (R : Type) [Artifacts R] : Prop :=
  ∀ env env' : FrameEnvelope, env.size = env'.size →
    (Artifacts.renderEnvelope R env).width = (Artifacts.renderEnvelope R env').width ∧
      (Artifacts.renderEnvelope R env).height = (Artifacts.renderEnvelope R env').height

omit [F64 R] [Artifacts R] [Crates] in
theorem size_ext {a b : Vt.Size} (hrows : a.rows = b.rows) (hcols : a.cols = b.cols) : a = b := by
  cases a
  cases b
  cases hrows
  cases hcols
  rfl

omit [F64 R] [Artifacts R] in
theorem size_of_tryView {env : FrameEnvelope} {view : CellGridView} (h : env.tryView = .ok view) :
    view.rows = env.size.rows ∧ view.cols = env.size.cols := by
  unfold FrameEnvelope.tryView at h
  cases hvalid : env.validate with
  | error e =>
    rw [hvalid] at h
    cases h
  | ok passed =>
    rw [hvalid] at h
    simp only [bind, Except.bind] at h
    split_ifs at h
    cases h
    exact ⟨rfl, rfl⟩

section

omit [F64 R] [Artifacts R] [Crates]

/-- Cells that do not fail come from frames of one size. -/
theorem size_of_compareCell {golden live : CellGridView}
    (h : (compareCell golden live).status ≠ .fail) :
    golden.rows = live.rows ∧ golden.cols = live.cols := by
  unfold compareCell at h
  dsimp only at h
  split_ifs at h with hpalette halt hregressed
  · exact absurd rfl h
  · exact absurd rfl h
  · exact absurd rfl h
  · simp only [Bool.or_eq_true, not_or, Bool.not_eq_true] at hregressed
    have hgeometry : (golden.rows != live.rows || golden.cols != live.cols) = false :=
      hregressed.1.1
    simpa using hgeometry

end

/-- A pass is of frames of one size, and at the pixel tier of pictures of one size. -/
theorem sizes_of_passes {tol : TolParams R}
    {verdict : TierVerdict R} (h : evaluateTier tier golden live png tol = .ok verdict)
    (hpass : verdict.status = .pass) :
    golden.size = live.size ∧ (tier = .pixel → ∀ bytes, png = some bytes →
      ∀ img, Artifacts.decodePng R bytes = .ok img →
        img.width = (Artifacts.renderEnvelope R live).width ∧
          img.height = (Artifacts.renderEnvelope R live).height) := by
  unfold evaluateTier at h
  cases hgolden : golden.tryView with
  | error e => simp [hgolden, Except.mapError, bind, Except.bind] at h
  | ok goldenView =>
    cases hlive : live.tryView with
    | error e => simp [hgolden, hlive, Except.mapError, bind, Except.bind] at h
    | ok liveView =>
      simp only [hgolden, hlive, Except.mapError, bind, Except.bind, pure, Except.pure] at h
      have hcells : (compareCell goldenView liveView).status ≠ .fail := by
        intro hfail
        by_cases hcell : tier = .cell
        · rw [if_pos hcell] at h
          cases h
          rw [hfail] at hpass
          cases hpass
        · rw [if_neg hcell, if_pos hfail] at h
          cases h
          cases hpass
      have hsize : golden.size = live.size := by
        have hgoldenSize := size_of_tryView hgolden
        have hliveSize := size_of_tryView hlive
        obtain ⟨hrows, hcols⟩ := size_of_compareCell hcells
        exact size_ext (by omega) (by omega)
      refine ⟨hsize, fun htier bytes hbytes img himg => ?_⟩
      rw [htier, hbytes, if_neg (by decide), if_neg hcells] at h
      simp only [himg] at h
      cases h
      by_contra hdims
      rw [not_and_or] at hdims
      have hmetrics : (comparePixels (Artifacts.renderEnvelope R live) img tol).status =
          "fail".toList := by
        unfold comparePixels
        rw [if_pos (hdims.imp (fun h => Ne.symm h) fun h => Ne.symm h)]
      simp [hmetrics] at hpass

omit [Crates] in
/-- A sidecar is not stale exactly when it is of the build that compares. -/
theorem isStaleVs_currentFp (hlaws : LibraryLaws R) {masks : Vt.MaskSet}
    {scenarioHash cmdEnvHash : Str} :
    sidecar.isStaleVs (currentFp tier masks scenarioHash cmdEnvHash) = false ↔
      sidecar.SameBuild (currentFp tier masks [] []) := by
  have hdefault : tolParamsIsDefault (currentFp (R := R) tier masks scenarioHash
      cmdEnvHash).tolParams = true := by
    simp [tolParamsIsDefault, tolParamsSame, currentFp, TolParams.default, hlaws.same_zero]
  simp only [Fingerprint.isStaleVs, hdefault, Bool.not_true, Bool.false_and, Bool.or_false,
    Bool.or_eq_false_iff, decide_eq_false_iff_not, ne_eq, not_not]
  constructor
  · rintro ⟨⟨⟨⟨⟨⟨⟨h₁, h₂⟩, h₃⟩, h₄⟩, h₅⟩, h₆⟩, h₇⟩, h₈⟩
    exact ⟨h₁, h₂, h₃, h₄, h₅, h₆, h₇, h₈⟩
  · rintro ⟨h₁, h₂, h₃, h₄, h₅, h₆, h₇, h₈⟩
    exact ⟨⟨⟨⟨⟨⟨⟨h₁, h₂⟩, h₃⟩, h₄⟩, h₅⟩, h₆⟩, h₇⟩, h₈⟩

/-- A frame matches a golden that is pinned and of this build, when it passes. -/
theorem matches_iff_passes (hlaws : LibraryLaws R) (hsizes : SizesPictures R)
    {masks : Vt.MaskSet} {scenarioHash cmdEnvHash : Str} :
    Matches R goldens name tier live (currentFp tier masks scenarioHash cmdEnvHash) ↔
      (stateOf R goldens name).Pinned ∧ (stateOf R goldens name).Fits tier masks ∧
        (stateOf R goldens name).Passes live := by
  rw [matches_iff]
  constructor
  · rintro ⟨golden, sidecar, png, h⟩
    have hbuild := (isStaleVs_currentFp hlaws).1 h.fresh
    obtain rfl : sidecar.tol = tier := hbuild.tol
    obtain ⟨verdict, hverdict, hpass⟩ := h.passes
    obtain ⟨hsize, hdims⟩ := sizes_of_passes hverdict hpass
    refine ⟨⟨sidecar, golden, h.hasSidecar, h.hasCapture, h.pinned, fun hne => ?_⟩,
      ⟨sidecar, h.hasSidecar, hbuild⟩, sidecar, golden, verdict, h.hasSidecar, h.hasCapture, ?_,
      hpass⟩
    · rcases h.picture with ⟨hcell, -⟩ | ⟨-, bytes, hbytes, hpin, hpng⟩
      · exact absurd hcell hne
      · refine ⟨bytes, hbytes, hpin, fun hpixel img himg => ?_⟩
        obtain ⟨hwidth, hheight⟩ := hdims hpixel bytes hpng img himg
        obtain ⟨hwidth', hheight'⟩ := hsizes golden live hsize
        exact ⟨hwidth.trans hwidth'.symm, hheight.trans hheight'.symm⟩
    · rcases h.picture with ⟨hcell, hpng⟩ | ⟨hne, bytes, hbytes, -, hpng⟩
      · rw [if_pos hcell, ← hpng]
        exact hverdict
      · rw [if_neg hne, hbytes, ← hpng]
        exact hverdict
  · rintro ⟨⟨sidecar, golden, hsidecar, hcapture, hpin, hpicture⟩, ⟨fp, hfp, hbuild⟩,
      ⟨fp', golden', verdict, hfp', hcapture', hverdict, hpass⟩⟩
    cases hsidecar.symm.trans hfp
    cases hsidecar.symm.trans hfp'
    cases hcapture.symm.trans hcapture'
    obtain rfl : sidecar.tol = tier := hbuild.tol
    refine ⟨golden, sidecar, _, hcapture, hsidecar, (isStaleVs_currentFp hlaws).2 hbuild, hpin, ?_,
      verdict, hverdict, hpass⟩
    by_cases hcell : sidecar.tol = .cell
    · exact Or.inl ⟨hcell, if_pos hcell⟩
    · obtain ⟨png, hpng, hok, -⟩ := hpicture hcell
      exact Or.inr ⟨hcell, png, hpng, hok, by rw [if_neg hcell, hpng]⟩

section

variable {m old : GoldenState R} (h : m.Alike old)
include h

omit [F64 R] [Crates] in
/-- A golden that holds the same is pinned too. -/
theorem GoldenState.Alike.pinned (hpinned : m.Pinned) : old.Pinned := by
  obtain ⟨hcapture, hsidecar, hpicture⟩ := h
  obtain ⟨sidecar, env, hs, henv, hpin, hpng⟩ := hpinned
  refine ⟨sidecar, env, hsidecar ▸ hs, hcapture ▸ henv, hpin, fun hne => ?_⟩
  obtain ⟨png, png', hpng', hold, hexact, hpixel⟩ := hpicture sidecar hs hne
  obtain ⟨bytes, hbytes, hok, hsized⟩ := hpng hne
  cases hpng'.symm.trans hbytes
  refine ⟨png', hold, ?_, fun htol img himg => ?_⟩
  · cases htol : sidecar.tol with
    | cell => exact absurd htol hne
    | exact =>
      rw [← hexact htol, ← htol]
      exact hok
    | pixel =>
      rw [htol] at hok
      unfold pinOk at hok ⊢
      rw [← hpixel htol]
      exact hok
  · rw [← hpixel htol] at himg
    exact hsized htol img himg

/-- What passes against it passes against a golden that holds the same. -/
theorem GoldenState.Alike.passes (hpasses : m.Passes live) : old.Passes live := by
  obtain ⟨hcapture, hsidecar, hpicture⟩ := h
  obtain ⟨sidecar, golden, verdict, hs, hgolden, hverdict, hpass⟩ := hpasses
  refine ⟨sidecar, golden, verdict, hsidecar ▸ hs, hcapture ▸ hgolden, ?_, hpass⟩
  cases htol : sidecar.tol with
  | cell =>
    rw [htol] at hverdict
    exact hverdict
  | exact =>
    obtain ⟨png, png', hpng, hold, hexact, -⟩ := hpicture sidecar hs (by rw [htol]; decide)
    rw [htol, hpng, hexact htol] at hverdict
    rw [hold]
    exact hverdict
  | pixel =>
    obtain ⟨png, png', hpng, hold, -, hpixel⟩ := hpicture sidecar hs (by rw [htol]; decide)
    rw [htol, hpng] at hverdict
    rw [hold]
    -- at the pixel tier a picture counts as what it decodes to
    have hsame : evaluateTier .pixel golden live (some png') sidecar.tolParams =
        evaluateTier .pixel golden live (some png) sidecar.tolParams := by
      unfold evaluateTier
      simp only [hpixel htol]
    exact hsame.trans hverdict

end

omit [F64 R] [Crates] in
theorem utf8_injective {a b : Str} (h : utf8 a = utf8 b) : a = b := by
  have hlossy := congrArg Utf8.lossy h
  rw [utf8, utf8, Utf8.lossy_encode, Utf8.lossy_encode] at hlossy
  exact hlossy

/-- The hash tells contents apart. -/
def CollisionFree (R : Type) [Artifacts R] : Prop :=
  ∀ a b : Bytes, sha256Hex R a = sha256Hex R b → a = b

section

omit [Crates]

omit [F64 R] in
/-- Pictures of one size that a sidecar pins are one picture, as far as its tier reads them. -/
theorem same_picture (hhash : CollisionFree R) {env : FrameEnvelope} {png png' : Bytes}
    (hpin : pinOk R sidecar.tol sidecar png = true)
    (hpin' : pinOk R sidecar.tol sidecar png' = true)
    (hsize : sidecar.tol = .pixel → SizedAs (R := R) png env)
    (hsize' : sidecar.tol = .pixel → SizedAs (R := R) png' env) :
    (sidecar.tol = .exact → png = png') ∧
      (sidecar.tol = .pixel → decodePng R png = decodePng R png') := by
  constructor
  · intro htol
    rw [htol] at hpin hpin'
    simp only [pinOk, decide_eq_true_eq] at hpin hpin'
    exact hhash _ _ (Option.some.inj (hpin.symm.trans hpin'))
  · intro htol
    rw [htol] at hpin hpin'
    simp only [pinOk] at hpin hpin'
    cases hdecode : decodePng R png with
    | error e =>
      rw [hdecode] at hpin
      cases hpin
    | ok img =>
      cases hdecode' : decodePng R png' with
      | error e =>
        rw [hdecode'] at hpin'
        cases hpin'
      | ok img' =>
        rw [hdecode] at hpin
        rw [hdecode'] at hpin'
        simp only [decide_eq_true_eq] at hpin hpin'
        have hraw := hhash _ _ (Option.some.inj (hpin.symm.trans hpin'))
        obtain ⟨hwidth, hheight⟩ := hsize htol img hdecode
        obtain ⟨hwidth', hheight'⟩ := hsize' htol img' hdecode'
        rw [← hwidth'] at hwidth
        rw [← hheight'] at hheight
        cases img
        cases img'
        cases hraw
        cases hwidth
        cases hheight
        rfl

/-- Files that one sidecar pins hold the same. -/
theorem alike_of_pinned (hlaws : LibraryLaws R) (hhash : CollisionFree R) {goldens' : Goldens}
    (hsidecar : (stateOf R goldens name).sidecar = (stateOf R goldens' name).sidecar)
    (hpinned : (stateOf R goldens name).Pinned) (hpinned' : (stateOf R goldens' name).Pinned) :
    (stateOf R goldens name).Alike (stateOf R goldens' name) := by
  have hread : ∀ {goldens : Goldens} {env : FrameEnvelope},
      (stateOf R goldens name).capture = some env →
        fromCanonicalJson R (toCanonicalJson R env) = .ok env := by
    intro goldens env henv
    obtain ⟨text, -, htext⟩ := Option.bind_eq_some_iff.1 henv
    cases hjson : fromCanonicalJson R text with
    | error e =>
      rw [hjson] at htext
      cases htext
    | ok env' =>
      rw [hjson] at htext
      cases htext
      exact hlaws.canonicalJson text _ hjson
  obtain ⟨sidecar, env, hs, henv, hpin, hpng⟩ := hpinned
  obtain ⟨sidecar', env', hs', henv', hpin', hpng'⟩ := hpinned'
  cases (hs.symm.trans hsidecar).trans hs'
  have hjson := utf8_injective (hhash _ _ (hpin.symm.trans hpin'))
  obtain rfl : env = env' := by
    have hsame := hread henv
    rw [hjson, hread henv'] at hsame
    exact (Except.ok.inj hsame).symm
  refine ⟨henv.trans henv'.symm, hsidecar, fun sidecar' hs'' hne => ?_⟩
  cases hs.symm.trans hs''
  obtain ⟨png, hbytes, hok, hsized⟩ := hpng hne
  obtain ⟨png', hbytes', hok', hsized'⟩ := hpng' hne
  obtain ⟨hexact, hpixel⟩ := same_picture hhash hok hok' hsized hsized'
  exact ⟨png, png', hbytes, hbytes', hexact, hpixel⟩

end

section

variable (opts : BlessOptions R) (f : FrameOutcome R) {files : List Artifact}

omit [F64 R] [Crates]

/-- A bless writes the sidecar last, and no file twice. -/
theorem blessFiles_cases : ∃ before, .fingerprint ∉ before ∧ before.Nodup ∧
    (blessFiles opts f = before ∨ blessFiles opts f = before ++ [.fingerprint]) := by
  unfold blessFiles
  split_ifs
  · exact ⟨[], by decide, by decide, Or.inl rfl⟩
  · exact ⟨[.capture], by decide, by decide, Or.inr rfl⟩
  · exact ⟨[.baseline], by decide, by decide, Or.inl rfl⟩
  · exact ⟨[.baseline, .capture], by decide, by decide, Or.inr rfl⟩

/-- A bless that stops before its last file does not come to the sidecar. -/
theorem fingerprint_not_mem (hfront : files <+: blessFiles opts f)
    (hne : files ≠ blessFiles opts f) : .fingerprint ∉ files := by
  obtain ⟨before, hbefore, -, hfiles | hfiles⟩ := blessFiles_cases opts f
  · rw [hfiles] at hfront
    exact fun hmem => hbefore (hfront.subset hmem)
  · rw [hfiles] at hfront hne
    rcases List.prefix_concat_iff.1 hfront with heq | hfront
    · exact absurd heq hne
    · exact fun hmem => hbefore (hfront.subset hmem)

/-- A bless in which the writes of some files succeed. -/
def stopping (files : List Artifact) : BlessWorld where
  isCi := false
  scan _ := []
  treeIsDirty := false
  prepare := .ok ()
  write _ artifact := if artifact ∈ files then .ok () else .error []
  record _ := .ok ()
  writeManifest := .ok ()

/-- A bless can stop after any of its files. -/
theorem goldenWrites_stopping (hfront : files <+: blessFiles opts f) :
    goldenWrites (stopping files) opts f = files := by
  have hokay : ∀ artifact, okay ((stopping files).write f.name artifact) =
      decide (artifact ∈ files) := by
    intro artifact
    unfold stopping
    by_cases hmem : artifact ∈ files <;> simp [hmem, okay]
  have hnodup : (blessFiles opts f).Nodup := by
    obtain ⟨before, hbefore, hnodup, hfiles | hfiles⟩ := blessFiles_cases opts f
    · rw [hfiles]
      exact hnodup
    · rw [hfiles]
      refine List.nodup_append.2 ⟨hnodup, List.nodup_singleton _, fun a ha b hb heq => ?_⟩
      rw [List.mem_singleton.1 hb] at heq
      exact hbefore (heq ▸ ha)
  obtain ⟨rest, hrest⟩ := hfront
  rw [← hrest] at hnodup
  rw [goldenWrites, ← hrest]
  simp only [hokay]
  rw [List.takeWhile_append_of_pos fun a ha => decide_eq_true ha]
  cases rest with
  | nil => rw [List.takeWhile_nil, List.append_nil]
  | cons next rest =>
    have hnext : next ∉ files := fun hmem =>
      (List.nodup_append.1 hnodup).2.2 next hmem next List.mem_cons_self rfl
    rw [List.takeWhile_cons_of_neg (by simp [hnext]), List.append_nil]

/-- A bless whose writes all succeed. -/
def BlessWorld.writing (world : BlessWorld) : BlessWorld :=
  { world with write := fun _ _ => .ok () }

theorem goldenWrites_writing (world : BlessWorld) :
    goldenWrites world.writing opts f = blessFiles opts f :=
  List.takeWhile_eq_self_iff.2 fun _ _ => rfl

/-- What a bless of a frame leaves of its golden. -/
theorem stateOf_blessOne (world : BlessWorld) (goldens : Goldens) :
    stateOf R (blessOne world opts f goldens).2 f.name =
      (stateOf R goldens f.name).after opts f (goldenWrites world opts f) := by
  rw [(blessOne_spec world opts f goldens).1, stateOf_foldl_put]

end

/-- The files of a golden that was blessed to its end, or files without a sidecar. -/
def GoldenState.Whole (old : GoldenState R) : Prop :=
  old.sidecar = none ∨ ∃ env sidecar, old.capture = some env ∧ old.sidecar = some sidecar ∧
    sidecar.captureSha256 = captureSha256 R env ∧
    (sidecar.tol ≠ .cell → ∃ png, old.picture = some png ∧
      encodePng R (renderEnvelope R env) = .ok png ∧
      sidecar.rgbaSha256 = some (rgbaSha256 R (renderEnvelope R env)) ∧
      sidecar.pngSha256 = some (pngSha256 R png))

section

omit [Crates]

/-- A golden that was blessed to its end is pinned. -/
theorem GoldenState.Whole.pinned (hlaws : LibraryLaws R) {old : GoldenState R} (h : old.Whole)
    (hsidecar : old.sidecar ≠ none) : old.Pinned := by
  obtain ⟨env, sidecar, hcapture, hs, hpin, hpicture⟩ := h.resolve_left hsidecar
  refine ⟨sidecar, env, hs, hcapture, hpin, fun hne => ?_⟩
  obtain ⟨png, hpng, hencode, hrgba, hpngSha⟩ := hpicture hne
  have hdecode := hlaws.png _ _ hencode
  refine ⟨png, hpng, ?_, fun _ img himg => ?_⟩
  · cases htol : sidecar.tol with
    | cell => exact absurd htol hne
    | exact => exact decide_eq_true hpngSha
    | pixel =>
      unfold pinOk
      rw [hdecode]
      exact decide_eq_true hrgba
  · cases hdecode.symm.trans himg
    exact ⟨rfl, rfl⟩

end

/-- Over a whole golden nothing that stops halfway is trusted that was not there before. -/
theorem settled_of_whole (hlaws : LibraryLaws R) (hhash : CollisionFree R) (opts : BlessOptions R)
    (f : FrameOutcome R) (goldens : Goldens) (hwhole : (stateOf R goldens f.name).Whole) :
    Settled opts f (stateOf R goldens f.name) := by
  intro files hfront _ hne hpinned _
  have hsidecar : ((stateOf R goldens f.name).after opts f files).sidecar =
      (stateOf R goldens f.name).sidecar := if_neg (fingerprint_not_mem opts f hfront hne)
  have hsome : (stateOf R goldens f.name).sidecar ≠ none := by
    obtain ⟨sidecar, -, hs, -⟩ := hpinned
    rw [← hsidecar, hs]
    exact Option.some_ne_none sidecar
  have hold := hwhole.pinned hlaws hsome
  rw [← stateOf_foldl_put] at hsidecar hpinned ⊢
  exact Or.inl (alike_of_pinned hlaws hhash hsidecar hpinned hold)

end

namespace Leftover

open Gate.Sample

/-- A frame at the pixel tier that shows the block cursor. -/
def frame : FrameOutcome ℚ where
  name := "start".toList
  tier := .pixel
  kind := .goldenAbsent
  reason := none
  verdict := none
  goldenJson := []
  liveCaptureJson := "block".toList
  liveCaptureSha256 := hash (utf8 "block".toList)
  liveFingerprint := currentFp .pixel ⟨[]⟩ [] []
  xfail := none
  retryNote := none

/-- A golden whose capture is gone, with its sidecar and its picture. -/
def uncaptured (sidecar : Str) : Goldens where
  captures := ∅
  fingerprints := (∅ : FinMap Str (Option Str)).insert "start".toList (some sidecar)
  baselines := (∅ : FinMap (Str × Str) (Option Bytes)).insert
    ("start".toList, "linux-x86_64".toList) (some black)

theorem toNat_ofNat_byte (b : UInt8) : (Char.ofNat b.toNat).toNat = b.toNat := by
  have hvalid : b.toNat.isValidChar := Or.inl (Nat.lt_trans b.toNat_lt (by decide))
  unfold Char.ofNat
  rw [dif_pos hvalid]
  rfl

theorem collisionFree : CollisionFree ℚ := by
  intro a b h
  refine List.map_injective_iff.2 (fun x y hxy => ?_) h
  have hnat := congrArg Char.toNat hxy
  simp only [toNat_ofNat_byte] at hnat
  exact UInt8.toNat_inj.1 hnat

theorem sizesPictures : SizesPictures ℚ := by
  intro env env' _
  have hone : ∀ env : FrameEnvelope, (renderEnvelope ℚ env).width = 1 ∧
      (renderEnvelope ℚ env).height = 1 := by
    intro env
    show (if env = bar then _ else _ : RgbaImage).width = 1 ∧
      (if env = bar then _ else _ : RgbaImage).height = 1
    split_ifs <;> exact ⟨rfl, rfl⟩
  rw [(hone env).1, (hone env).2, (hone env').1, (hone env').2]
  exact ⟨rfl, rfl⟩

/-- A leftover sidecar with the tolerance that the new one has passes nothing that the new one does
not. -/
theorem settled_strict :
    Settled ⟨none, none⟩ frame (stateOf ℚ (uncaptured "strict".toList) frame.name) := by
  have hfiles : blessFiles ⟨none, none⟩ frame = [.baseline, .capture, .fingerprint] := by
    with_unfolding_all decide
  intro files hfront hnone hall hpinned _
  rw [hfiles] at hfront hall ⊢
  have hinits : files ∈ [Artifact.baseline, .capture, .fingerprint].inits :=
    (List.mem_inits _ _).2 hfront
  simp only [List.inits, List.map_cons, List.map_nil, List.mem_cons, List.not_mem_nil,
    or_false] at hinits
  rcases hinits with rfl | rfl | rfl | rfl
  · exact absurd rfl hnone
  · obtain ⟨sidecar, env, -, henv, -⟩ := hpinned
    cases henv
  · have hsame : (stateOf ℚ (uncaptured "strict".toList) frame.name).after ⟨none, none⟩ frame
        [.baseline, .capture] = (stateOf ℚ (uncaptured "strict".toList) frame.name).after
          ⟨none, none⟩ frame [.baseline, .capture, .fingerprint] := by
      with_unfolding_all rfl
    rw [hsame] at hpinned ⊢
    obtain ⟨sidecar, -, hs, -⟩ := id hpinned
    exact Or.inr fun live hpasses => ⟨hpasses, hpinned, sidecar, sidecar, hs, hs,
      ⟨rfl, rfl, rfl, rfl, rfl, rfl, rfl, rfl⟩⟩
  · exact absurd rfl hall

end Leftover

end Shux.Gate
