/-
# Comparing a frame with its golden

A golden is a captured frame in a file, with a fingerprint beside it that says under which build
it was made and pins its content. A frame is compared only with a golden it can trust: one that
is there, was made by this build and was not edited. The cells decide first, and a picture can
only add a failure.

Text of captures and fingerprints, hashes and pictures are made by libraries. They are parameters
here, and floats are too.
-/

import Shux.Gate.Vocab

namespace Shux.Gate

open Vt

abbrev Bytes := List UInt8

/-- The operations on `f64` that comparing pictures performs. -/
class F64 (R : Type) where
  zero : R
  infinity : R
  /-- The quotient of two counts. -/
  ratio : Nat → Nat → R
  le : R → R → Bool
  /-- Equal, or both not a number. -/
  same : R → R → Bool

inductive Tier where
  | cell
  | pixel
  | exact
  deriving DecidableEq, Repr

structure TolParams (R : Type) where
  maxChannelDelta : Nat
  maxChangedFrac : R
  deriving DecidableEq

def TolParams.default {R : Type} [F64 R] : TolParams R := ⟨0, F64.zero⟩

/-- The sidecar of a golden. -/
structure Fingerprint (R : Type) where
  fpSchema : Nat
  schema : Nat
  rendererFormatVersion : Nat
  rasterFontFingerprint : Str
  unicodeWidthVer : Str
  tol : Tier
  tolParams : TolParams R
  maskHash : Str
  platform : Option Str
  shuxVersion : Str
  captureSha256 : Str
  rgbaSha256 : Option Str
  pngSha256 : Option Str
  scenarioHash : Str
  cmdEnvHash : Str
  deriving DecidableEq

def fingerprintSchema : Nat := 1
def rendererFormatVersion : Nat := 1

/-- An RGBA picture, four channels to the pixel. -/
structure RgbaImage where
  width : Nat
  height : Nat
  raw : Bytes
  raw_length : raw.length = 4 * (width * height)

/-- What libraries, the rasterizer and the build say. -/
class Artifacts (R : Type) where
  sha256Hex : Bytes → Str
  toCanonicalJson : FrameEnvelope → Str
  fromCanonicalJson : Str → Except Str FrameEnvelope
  fingerprintToJson : Fingerprint R → Except Str Str
  fingerprintFromJson : Str → Except Str (Fingerprint R)
  renderEnvelope : FrameEnvelope → RgbaImage
  encodePng : RgbaImage → Except Str Bytes
  decodePng : Bytes → Except Str RgbaImage
  builtinFontFingerprint : Str
  unicodeWidthVersion : Str
  osArch : Str
  shuxVersion : Str

/-- `String::into_bytes`. -/
def utf8 (text : Str) : Bytes := text.flatMap String.utf8EncodeChar

section

variable {R : Type} [F64 R]

def tolParamsSame (a b : TolParams R) : Bool :=
  decide (a.maxChannelDelta = b.maxChannelDelta) && F64.same a.maxChangedFrac b.maxChangedFrac

def tolParamsIsDefault (t : TolParams R) : Bool := tolParamsSame t .default

/-- Whether a sidecar was made under another build or configuration than `current`. A tolerance
counts only when the run names one. -/
def Fingerprint.isStaleVs (fp current : Fingerprint R) : Bool :=
  decide (fp.fpSchema ≠ current.fpSchema) || decide (fp.schema ≠ current.schema) ||
    decide (fp.rendererFormatVersion ≠ current.rendererFormatVersion) ||
    decide (fp.rasterFontFingerprint ≠ current.rasterFontFingerprint) ||
    decide (fp.unicodeWidthVer ≠ current.unicodeWidthVer) || decide (fp.tol ≠ current.tol) ||
    (!tolParamsIsDefault current.tolParams && !tolParamsSame fp.tolParams current.tolParams) ||
    decide (fp.maskHash ≠ current.maskHash) || decide (fp.platform ≠ current.platform)

variable [Artifacts R]

variable (R) in
/-- The content pin of a cell golden. -/
def captureSha256 (env : FrameEnvelope) : Str :=
  Artifacts.sha256Hex R (utf8 (Artifacts.toCanonicalJson R env))

variable (R) in
def pngSha256 (png : Bytes) : Str := Artifacts.sha256Hex R png

variable (R) in
def rgbaSha256 (img : RgbaImage) : Str := Artifacts.sha256Hex R img.raw

def decimal (n : Nat) : Str := (Nat.repr n).toList

/-- The rectangles of a policy in order. -/
def sortedRects (masks : MaskSet) : List MaskRect :=
  masks.rects.mergeSort fun a b =>
    decide (toLex (a.row, toLex (a.col, a.width)) ≤ toLex (b.row, toLex (b.col, b.width)))

variable (R) in
/-- The hash of a redaction policy. -/
def maskHash (masks : MaskSet) : Str :=
  Artifacts.sha256Hex R <| utf8 <| "masks:v1".toList ++ (sortedRects masks).flatMap fun rect =>
    ";".toList ++ decimal rect.row ++ ",".toList ++ decimal rect.col ++ ",".toList ++
      decimal rect.width

/-- The fingerprint of this build and scenario. -/
def currentFp (tier : Tier) (masks : MaskSet) (scenarioHash cmdEnvHash : Str) : Fingerprint R where
  fpSchema := fingerprintSchema
  schema := schemaVersion
  rendererFormatVersion := rendererFormatVersion
  rasterFontFingerprint := Artifacts.builtinFontFingerprint R
  unicodeWidthVer := Artifacts.unicodeWidthVersion R
  tol := tier
  tolParams := .default
  maskHash := maskHash R masks
  platform := if tier ≠ .cell then some (Artifacts.osArch R) else none
  shuxVersion := Artifacts.shuxVersion R
  captureSha256 := []
  rgbaSha256 := none
  pngSha256 := none
  scenarioHash := scenarioHash
  cmdEnvHash := cmdEnvHash

end

def isIndexed : Color → Bool
  | .indexed _ => true
  | _ => false

/-- A colour that the palette decides, in front, behind or under the text. -/
def hasIndexedColors (view : CellGridView) : Bool :=
  (List.range view.rows).any fun r => (List.range view.cols).any fun c =>
    let cell := view.cell r c
    isIndexed cell.style.fg || isIndexed cell.style.bg ||
      cell.extended.any fun ext => ext.underlineColor.any isIndexed

/-- Either side overrode its palette and uses a colour from it. -/
def paletteUnportable (a b : CellGridView) : Bool :=
  (a.paletteOverridden && hasIndexedColors a) || (b.paletteOverridden && hasIndexedColors b)

structure CellVerdict where
  status : GateStatus
  diff : FrameDiff
  reason : Option Str

def compareCell (golden live : CellGridView) : CellVerdict :=
  let diff := diffFrames golden live
  if paletteUnportable golden live then ⟨.fail, diff, some "palette_unportable".toList⟩
  else if golden.altScreen ≠ live.altScreen then ⟨.fail, diff, some "alt_screen_changed".toList⟩
  else
    let regressed := diff.geometryChanged || decide (0 < diff.cellsChanged) || diff.cursorMoved
    ⟨if regressed then .fail else .pass, diff, none⟩

structure PixelMetrics (R : Type) where
  status : Str
  sizeMismatch : Bool
  changedPixels : Nat
  totalPixels : Nat
  pixelDiffRatio : R
  meanRgbaChannelDelta : R
  maxChannelDelta : Nat

/-- How far apart the channels of a pixel are. -/
def channelDeltas (a b : Bytes) (px : Nat) : List Nat :=
  (List.range 4).map fun ch =>
    let a := (a.getD (px * 4 + ch) 0).toNat
    let b := (b.getD (px * 4 + ch) 0).toNat
    (a - b) + (b - a)

section

variable {R : Type} [F64 R]

def comparePixels (actual baseline : RgbaImage) (tol : TolParams R) : PixelMetrics R :=
  let totalPixels := actual.width * actual.height
  if actual.width ≠ baseline.width ∨ actual.height ≠ baseline.height then
    { status := "fail".toList, sizeMismatch := true, changedPixels := 0, totalPixels
      pixelDiffRatio := F64.ratio 1 1, meanRgbaChannelDelta := F64.infinity
      maxChannelDelta := 2 ^ 16 - 1 }
  else
    let deltas := (List.range totalPixels).map (channelDeltas actual.raw baseline.raw)
    let changedPixels := deltas.countP fun pixel => pixel.any fun d => decide (0 < d)
    let maxChannelDelta := deltas.flatten.foldl max 0
    let pixelDiffRatio := if totalPixels = 0 then F64.zero else F64.ratio changedPixels totalPixels
    let passed := F64.le pixelDiffRatio tol.maxChangedFrac &&
      decide (maxChannelDelta ≤ tol.maxChannelDelta)
    { status := if passed then "pass".toList else "fail".toList
      sizeMismatch := false, changedPixels, totalPixels, pixelDiffRatio
      meanRgbaChannelDelta :=
        if totalPixels = 0 then F64.zero else F64.ratio deltas.flatten.sum (totalPixels * 4)
      maxChannelDelta }

inductive GateError where
  | malformedGolden (why : CaptureError)
  | malformedLive (why : CaptureError)
  | render (why : Str)
  | decode (why : Str)
  | missingBaseline (tier : Tier)

structure TierVerdict (R : Type) where
  status : GateStatus
  cell : CellVerdict
  pixel : Option (PixelMetrics R)
  reason : Option Str

variable [Crates] [Artifacts R]

/-- Judge a frame at a tier. The cells come first, and what they fail stays failed. -/
def evaluateTier (tier : Tier) (goldenEnv liveEnv : FrameEnvelope) (goldenPng : Option Bytes)
    (tol : TolParams R) : Except GateError (TierVerdict R) := do
  let goldenView ← goldenEnv.tryView.mapError .malformedGolden
  let liveView ← liveEnv.tryView.mapError .malformedLive
  let cell := compareCell goldenView liveView
  if tier = .cell then
    return { status := cell.status, cell, pixel := none, reason := cell.reason }
  if cell.status = .fail then
    return { status := .fail, cell, pixel := none, reason := cell.reason }
  match goldenPng with
  | none => .error (.missingBaseline tier)
  | some goldenPng =>
    let liveImg := Artifacts.renderEnvelope R liveEnv
    match tier with
    | .exact => do
      let _ ← (Artifacts.decodePng R goldenPng).mapError .decode
      let livePng ← (Artifacts.encodePng R liveImg).mapError .render
      let identical := decide (livePng = goldenPng)
      return {
        status := if identical then .pass else .fail, cell, pixel := none
        reason := if identical then none else some "exact_diff".toList }
    | _ => do
      let goldenImg ← (Artifacts.decodePng R goldenPng).mapError .decode
      let metrics := comparePixels liveImg goldenImg tol
      let passed := decide (metrics.status = "pass".toList)
      return {
        status := if passed then .pass else .fail, cell, pixel := some metrics
        reason := if passed then none else some "pixel_diff".toList }

end

end Shux.Gate
