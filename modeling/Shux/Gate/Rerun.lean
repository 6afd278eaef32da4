/-
# A frame against its own capture

A frame that was blessed is its own golden. Compared with it, its cells do not differ and its
picture does not either, so all that is left to decide is whether the golden is one that a
comparison trusts: the frame is well formed, and it does not lean on a palette it overrode.
-/

import Shux.Gate.Bless

namespace Shux.Gate

open Artifacts List

open Vt (Crates FrameEnvelope CellGridView diffFrames changedRow pairChanged spansFrom)

variable (view : CellGridView)

theorem pairChanged_replicate (wide : List Bool) (cols n : Nat) :
    pairChanged wide (replicate n false) cols = replicate n false := by
  unfold pairChanged
  induction range (cols - 1) with
  | nil => rfl
  | cons c rest ih =>
    have hfalse : ∀ i, (replicate n false).getD i false = false := by
      intro i
      rw [getD_eq_getElem?_getD, getElem?_replicate]
      split <;> rfl
    rw [foldl_cons, hfalse, hfalse, if_neg (by simp)]
    exact ih

/-- No cell differs from itself. -/
theorem changedRow_self (cols r : Nat) :
    changedRow view view cols r = replicate cols false := by
  have hcells : ((range cols).map fun c => Vt.cellsDiffer
      (view.defaults.fg != view.defaults.fg) (view.defaults.bg != view.defaults.bg)
      (view.cell r c) (view.cell r c)) = replicate cols false := by
    refine List.eq_replicate_iff.2 ⟨by simp, ?_⟩
    intro b hb
    obtain ⟨c, -, rfl⟩ := List.mem_map.1 hb
    simp [Vt.cellsDiffer]
  have hpairs := pairChanged_replicate
    ((range cols).map fun c => (view.cell r c).isWide || (view.cell r c).isWide) cols cols
  rw [← hcells] at hpairs
  exact hpairs.trans hcells

theorem spansFrom_replicate (n c : Nat) : spansFrom (replicate n false) c none = [] := by
  induction n generalizing c with
  | zero => rfl
  | succ n ih =>
    rw [replicate_succ, spansFrom, ih]
    rfl

/-- A frame does not differ from itself. -/
theorem diffFrames_self :
    (diffFrames view view).cellsChanged = 0 ∧ (diffFrames view view).geometryChanged = false ∧
      (diffFrames view view).cursorMoved = false := by
  refine ⟨?_, by simp [diffFrames], by simp [diffFrames]⟩
  have hrows : ((range (min view.rows view.rows)).map
      (changedRow view view (min view.cols view.cols))).map (fun row => spansFrom row 0 none) =
        replicate (min view.rows view.rows) [] := by
    refine List.eq_replicate_iff.2 ⟨by simp, ?_⟩
    intro spans hspans
    obtain ⟨row, hrow, rfl⟩ := List.mem_map.1 hspans
    obtain ⟨r, -, rfl⟩ := List.mem_map.1 hrow
    rw [changedRow_self, spansFrom_replicate]
  unfold diffFrames
  simp only [hrows]
  have hnone : ∀ f : List (Nat × Nat) × Nat → List (Nat × Nat × Nat), (∀ r, f ([], r) = []) →
      (replicate (min view.rows view.rows) ([] : List (Nat × Nat))).zipIdx.flatMap f = [] := by
    refine fun f hf => List.flatMap_eq_nil_iff.2 ?_
    rintro ⟨spans, r⟩ hmem
    have hspans : spans = [] := eq_of_mem_replicate (fst_mem_of_mem_zipIdx hmem)
    subst hspans
    exact hf r
  rw [hnone _ fun _ => rfl]
  rfl

/-- A frame that leans on a palette it overrode. -/
def selfUnportable (view : CellGridView) : Bool := view.paletteOverridden && hasIndexedColors view

theorem compareCell_self :
    (compareCell view view).status = if selfUnportable view then .fail else .pass := by
  obtain ⟨hcells, hgeometry, hcursor⟩ := diffFrames_self view
  unfold compareCell paletteUnportable
  rw [Bool.or_self]
  cases hself : selfUnportable view with
  | true =>
    rw [selfUnportable] at hself
    rw [hself]
    rfl
  | false =>
    rw [selfUnportable] at hself
    simp [hself, hcells, hgeometry, hcursor]

/-- The tolerance is one that `TolParams::validate` lets pass: a fraction from zero to one. -/
def TolParams.InRange {R : Type} [F64 R] (tol : TolParams R) : Prop :=
  F64.le F64.zero tol.maxChangedFrac = true ∧ F64.le tol.maxChangedFrac (F64.ratio 1 1) = true

/-- What the libraries promise: zero is a quotient of none, JSON and PNG read back what they wrote.
A fraction in range may come back as another one that is not below zero. -/
structure LibraryLaws (R : Type) [F64 R] [Artifacts R] : Prop where
  le_zero : F64.le (F64.zero : R) F64.zero = true
  zero_le_one : F64.le (F64.zero : R) (F64.ratio 1 1) = true
  same_zero : F64.same (F64.zero : R) F64.zero = true
  ratio_zero : ∀ n, 0 < n → F64.ratio 0 n = (F64.zero : R)
  canonicalJson : ∀ text env, fromCanonicalJson R text = .ok env →
    fromCanonicalJson R (toCanonicalJson R env) = .ok env
  fingerprintJson : ∀ (fp : Fingerprint R) text,
    fp.tolParams.InRange → fingerprintToJson fp = .ok text →
      ∃ frac : R, F64.le F64.zero frac = true ∧ fingerprintFromJson text =
        .ok { fp with tolParams := ⟨fp.tolParams.maxChannelDelta, frac⟩ }
  png : ∀ img png, encodePng R img = .ok png → decodePng R png = .ok img

variable {R : Type} [F64 R] [Crates] [Artifacts R]

omit [Crates] in
/-- A picture is within every tolerance of itself. -/
theorem comparePixels_self (hlaws : LibraryLaws R) (img : RgbaImage) {tol : TolParams R}
    (hfrac : F64.le F64.zero tol.maxChangedFrac = true) :
    (comparePixels img img tol).status = "pass".toList := by
  have hdeltas : ∀ px, ∀ d ∈ channelDeltas img.raw img.raw px, d = 0 := by
    intro px d hd
    obtain ⟨ch, -, rfl⟩ := List.mem_map.1 hd
    show _ - _ + (_ - _) = 0
    rw [Nat.sub_self]
  have hchanged : ((range (img.width * img.height)).map
      (channelDeltas img.raw img.raw)).countP (fun pixel => pixel.any fun d => decide (0 < d)) =
        0 := by
    rw [countP_eq_zero]
    intro pixel hpixel
    obtain ⟨px, -, rfl⟩ := List.mem_map.1 hpixel
    simp only [any_eq_true, decide_eq_true_eq, not_exists, not_and]
    intro d hd
    rw [hdeltas px d hd]
    decide
  have hmax : ((range (img.width * img.height)).map
      (channelDeltas img.raw img.raw)).flatten.foldl max 0 = 0 := by
    have hall : ∀ d ∈ ((range (img.width * img.height)).map
        (channelDeltas img.raw img.raw)).flatten, d = 0 := by
      intro d hd
      obtain ⟨pixel, hpixel, hd⟩ := List.mem_flatten.1 hd
      obtain ⟨px, -, rfl⟩ := List.mem_map.1 hpixel
      exact hdeltas px d hd
    generalize ((range (img.width * img.height)).map
      (channelDeltas img.raw img.raw)).flatten = deltas at hall
    induction deltas with
    | nil => rfl
    | cons d rest ih =>
      rw [foldl_cons, hall d mem_cons_self]
      exact ih fun d hd => hall d (mem_cons_of_mem _ hd)
  have hratio : (if img.width * img.height = 0 then F64.zero
      else F64.ratio 0 (img.width * img.height) : R) = F64.zero := by
    split
    · rfl
    · next hne => exact hlaws.ratio_zero _ (Nat.pos_of_ne_zero hne)
  unfold comparePixels
  rw [if_neg (by simp)]
  simp only [hchanged, hmax, hratio, hfrac, Nat.zero_le, decide_true, Bool.and_self, if_true]

omit [F64 R] [Artifacts R] in
/-- The kind of a frame that is compared with its own capture. -/
def selfKind (env : FrameEnvelope) : FrameKind :=
  match env.tryView with
  | .error _ => .goldenUntrusted
  | .ok view => if selfUnportable view then .mismatch else .match

/-- A frame against itself, with the picture made of it. -/
theorem evaluateTier_self (hlaws : LibraryLaws R) (tier : Tier) (env : FrameEnvelope)
    {view : CellGridView} (hview : env.tryView = .ok view) (png : Option Bytes) {tol : TolParams R}
    (hfrac : F64.le F64.zero tol.maxChangedFrac = true)
    (hpng : tier ≠ .cell → ∃ bytes, png = some bytes ∧
      encodePng R (renderEnvelope R env) = .ok bytes) :
    ∃ verdict, evaluateTier (R := R) tier env env png tol = .ok verdict ∧
      verdict.status = if selfUnportable view then .fail else .pass := by
  have hcell := compareCell_self view
  unfold evaluateTier
  simp only [hview, Except.mapError, bind, Except.bind, pure, Except.pure]
  cases hself : selfUnportable view with
  | true =>
    -- The cells fail, whatever the tier.
    rw [hself, if_pos rfl] at hcell
    by_cases htier : tier = .cell
    · exact ⟨_, if_pos htier, hcell⟩
    · refine ⟨_, (if_neg htier).trans (if_pos hcell), rfl⟩
  | false =>
    rw [hself, if_neg Bool.false_ne_true] at hcell
    have hpass : ¬ (compareCell view view).status = .fail := by rw [hcell]; decide
    by_cases htier : tier = .cell
    · exact ⟨_, if_pos htier, hcell⟩
    · obtain ⟨bytes, rfl, hencode⟩ := hpng htier
      have hdecode := hlaws.png _ _ hencode
      rw [if_neg htier, if_neg hpass]
      cases tier with
      | cell => exact (htier rfl).elim
      | pixel =>
        simp only [hdecode, comparePixels_self hlaws _ hfrac]
        exact ⟨_, rfl, rfl⟩
      | exact =>
        simp only [hdecode, hencode]
        exact ⟨_, rfl, by simp⟩

/-- A frame of a run: captured from a glance and compared, with a note of its retries. -/
def FromCapture (cfg : Config) (f : FrameOutcome R) (golden : GoldenStep) (live : FrameEnvelope) :
    Prop :=
  (∃ text, fromCanonicalJson R text = .ok live) ∧
    ∃ note, f = { (captureAndCompare cfg golden live).1 with retryNote := note }

/-- The tolerance a bless is asked for is in range. -/
def BlessOptions.InRange (opts : BlessOptions R) : Prop :=
  ∀ tol, opts.tol = some tol → tol.InRange

/-- The sidecar that makes a frame's capture its golden. -/
def ownSidecar (f : FrameOutcome R) (tol : TolParams R) (rgba png : Option Str) : Fingerprint R :=
  { f.liveFingerprint with
    captureSha256 := f.liveCaptureSha256
    tolParams := tol
    rgbaSha256 := rgba
    pngSha256 := png }

/-- The picture of a frame is its baseline, and the sidecar pins it. -/
def Pictured (goldens : Goldens) (f : FrameOutcome R) (rgba png : Option Str) : Prop :=
  ∃ (env : FrameEnvelope) (bytes : Bytes), fromCanonicalJson R f.liveCaptureJson = .ok env ∧
    encodePng R (renderEnvelope R env) = .ok bytes ∧
    goldens.baselines.get (f.name, osArch R) = some (some bytes) ∧
    rgba = some (rgbaSha256 R (renderEnvelope R env)) ∧
    png = some (pngSha256 R bytes)

/-- The golden directory holds a frame as its own golden. -/
structure Stored (goldens : Goldens) (f : FrameOutcome R) : Prop where
  capture : goldens.captures.get f.name = some (some f.liveCaptureJson)
  sidecar : ∃ (text : Str) (tol : TolParams R) (rgba png : Option Str),
    goldens.fingerprints.get f.name = some (some text) ∧
      fingerprintToJson (ownSidecar f tol rgba png) = .ok text ∧
      tol.InRange ∧
      (f.tier ≠ .cell → Pictured goldens f rgba png)

variable {cfg : Config} {goldens : Goldens} {golden : GoldenStep} {live : FrameEnvelope}
  {fp : Fingerprint R}
  {f : FrameOutcome R}

section

omit [Crates]

/-- A sidecar of this build is not stale, whatever its tolerance and pins. -/
theorem isStaleVs_ownSidecar (hlaws : LibraryLaws R) (tier : Tier) (masks : Vt.MaskSet)
    (scenarioHash cmdEnvHash : Str) (tol : TolParams R) (rgba png : Option Str)
    (hfp : f.liveFingerprint = currentFp tier masks scenarioHash cmdEnvHash) :
    (ownSidecar f tol rgba png).isStaleVs (currentFp tier masks scenarioHash cmdEnvHash) =
      false := by
  have hdefault : tolParamsIsDefault (currentFp (R := R) tier masks scenarioHash
      cmdEnvHash).tolParams = true := by
    simp [tolParamsIsDefault, tolParamsSame, currentFp, TolParams.default, hlaws.same_zero]
  simp [Fingerprint.isStaleVs, ownSidecar, hfp, hdefault]

theorem trustedGolden_ok {name text sidecar : Str} {current : Fingerprint R}
    {golden : FrameEnvelope} (hcapture : goldens.captures.get name = some (some text))
    (hgolden : fromCanonicalJson R text = .ok golden)
    (hsidecar : goldens.fingerprints.get name = some (some sidecar))
    (hfp : fingerprintFromJson sidecar = .ok fp)
    (hfresh : fp.isStaleVs current = false) (hpin : fp.captureSha256 = captureSha256 R golden) :
    trustedGolden goldens name current = .ok (golden, fp) := by
  unfold trustedGolden
  simp only [hcapture, hsidecar, Option.map_some, hgolden, hfp, hfresh, hpin]
  simp

/-- The picture of a frame is trusted, and is what the frame looks like. -/
theorem trustedBaseline_ok (hlaws : LibraryLaws R) {rgba png : Option Str}
    (hlive : fromCanonicalJson R f.liveCaptureJson = .ok live)
    (hrgba : fp.rgbaSha256 = rgba) (hpng : fp.pngSha256 = png)
    (hpictured : f.tier ≠ .cell → Pictured goldens f rgba png) :
    ∃ bytes, trustedBaseline goldens f.name f.tier fp = .ok bytes ∧
      (f.tier ≠ .cell → ∃ png, bytes = some png ∧
        encodePng R (renderEnvelope R live) = .ok png) := by
  unfold trustedBaseline
  by_cases htier : f.tier = .cell
  · exact ⟨none, if_pos htier, fun hne => (hne htier).elim⟩
  · obtain ⟨env, bytes, henv, hencode, hbaseline, rfl, rfl⟩ := hpictured htier
    obtain rfl : live = env := by
      rw [hlive] at henv
      cases henv
      rfl
    have hpin : pinOk R f.tier fp bytes = true := by
      unfold pinOk
      cases f.tier with
      | cell => rfl
      | pixel => simp [hlaws.png _ _ hencode, hrgba]
      | exact => simp [hpng]
    refine ⟨some bytes, ?_, fun _ => ⟨bytes, rfl, hencode⟩⟩
    rw [if_neg htier, hbaseline]
    exact if_pos hpin

end

/-- A frame with a golden to trust is judged at its tier. -/
theorem frameKind_compareFrame {name : Str} {tier : Tier} {current : Fingerprint R}
    {golden : FrameEnvelope} {bytes : Option Bytes}
    (hgolden : trustedGolden goldens name current = .ok (golden, fp))
    (hbaseline : trustedBaseline goldens name tier fp = .ok bytes) :
    frameKind (compareFrame goldens name tier live current).signal =
      match evaluateTier tier golden live bytes fp.tolParams with
      | .ok verdict =>
        if verdict.status = .pass then .match
        else if verdict.status = .fail then .mismatch
        else .goldenUntrusted
      | .error _ => .goldenUntrusted := by
  unfold compareFrame
  simp only [hgolden, hbaseline]
  cases evaluateTier tier golden live bytes fp.tolParams with
  | error _ => rfl
  | ok verdict =>
    by_cases hpass : verdict.status = .pass
    · simp only [if_pos hpass]
      rfl
    · by_cases hfail : verdict.status = .fail
      · simp only [if_neg hpass, if_pos hfail]
        rfl
      · simp only [if_neg hpass, if_neg hfail]
        rfl

/-- What a frame of a run carries. -/
structure FromCapture.Fields (cfg : Config) (f : FrameOutcome R) (golden : GoldenStep)
    (live : FrameEnvelope) : Prop where
  name : f.name = golden.name
  tier : f.tier = golden.tier
  xfail : f.xfail = golden.xfail
  json : f.liveCaptureJson = toCanonicalJson R live
  sha : f.liveCaptureSha256 = captureSha256 R live
  fingerprint : f.liveFingerprint =
    currentFp golden.tier (buildMaskSet golden.masks) cfg.scenarioHash cfg.cmdEnvHash

theorem FromCapture.fields (h : FromCapture cfg f golden live) :
    FromCapture.Fields cfg f golden live := by
  obtain ⟨-, note, rfl⟩ := h
  exact ⟨rfl, rfl, rfl, rfl, rfl, rfl⟩

/-- The capture of a frame reads back as the frame. -/
theorem FromCapture.read (hlaws : LibraryLaws R) (h : FromCapture cfg f golden live) :
    fromCanonicalJson R f.liveCaptureJson = .ok live := by
  obtain ⟨text, htext⟩ := h.1
  rw [h.fields.json]
  exact hlaws.canonicalJson text live htext

/-- A frame whose capture is its golden is judged by its own form and palette. -/
theorem kind_of_stored (hlaws : LibraryLaws R) (hfrom : FromCapture cfg f golden live)
    (hstored : Stored goldens f) :
    (captureAndCompare (R := R) { cfg with goldens } golden live).1.kind = selfKind live := by
  have hlive := hfrom.read hlaws
  have hfields := hfrom.fields
  obtain ⟨text, tol, rgba, png, htext, htojson, hfrac, hpictured⟩ := hstored.sidecar
  obtain ⟨frac, hfrac', hfromjson⟩ := hlaws.fingerprintJson _ text hfrac htojson
  replace hfromjson : fingerprintFromJson text =
    .ok (ownSidecar f ⟨tol.maxChannelDelta, frac⟩ rgba png) := hfromjson
  obtain ⟨bytes, hbaseline, hbytes⟩ :=
    trustedBaseline_ok hlaws hlive
      (show (ownSidecar f ⟨tol.maxChannelDelta, frac⟩ rgba png).rgbaSha256 = rgba from rfl)
      (show (ownSidecar f ⟨tol.maxChannelDelta, frac⟩ rgba png).pngSha256 = png from rfl) hpictured
  have hgolden := trustedGolden_ok hstored.capture hlive htext hfromjson
    (isStaleVs_ownSidecar hlaws golden.tier (buildMaskSet golden.masks) cfg.scenarioHash
      cfg.cmdEnvHash _ rgba png hfields.fingerprint) hfields.sha
  rw [hfields.name, hfields.tier] at hbaseline
  rw [hfields.name] at hgolden
  rw [hfields.tier] at hbytes
  refine (frameKind_compareFrame hgolden hbaseline).trans ?_
  show (match evaluateTier golden.tier live live bytes ⟨tol.maxChannelDelta, frac⟩ with
    | .ok verdict => _
    | .error _ => _) = _
  unfold selfKind
  cases hview : live.tryView with
  | error why =>
    -- A frame that is not well formed is no golden.
    have heval : evaluateTier (R := R) golden.tier live live bytes
        ⟨tol.maxChannelDelta, frac⟩ = .error (.malformedGolden why) := by
      unfold evaluateTier
      rw [hview]
      rfl
    rw [heval]
  | ok view =>
    obtain ⟨verdict, heval, hstatus⟩ := evaluateTier_self (R := R) hlaws golden.tier live hview
      bytes (show F64.le F64.zero
        (⟨tol.maxChannelDelta, frac⟩ : TolParams R).maxChangedFrac = true from hfrac') hbytes
    rw [heval]
    simp only [hstatus]
    cases selfUnportable view with
    | true => rfl
    | false => rfl

end Shux.Gate
