/-
# Sample goldens

One set of libraries, frames and sidecars for the runs that the results about the gate are tried
on. Floats are rationals, and the libraries know three frames of one cell and four sidecars. Their
hash keeps every byte, so that it has no collisions.
-/

import Shux.Gate.Bless

namespace Shux.Gate.Sample

open Vt (Crates FrameEnvelope)

/-- Quotients as rationals. -/
scoped instance : F64 ℚ where
  zero := 0
  infinity := 2 ^ 1024
  ratio a b := a / b
  le a b := decide (a ≤ b)
  same a b := decide (a = b)

scoped instance : Crates := Vt.plainCrates

scoped instance : Dates := ⟨fun _ => none, fun _ => []⟩

/-- A blank cell under a block cursor. -/
def block : FrameEnvelope where
  schema := 1
  size := ⟨1, 1, Vt.Size.one_lt_max, Vt.Size.one_lt_max⟩
  altScreen := false
  defaults := .default
  cursor := ⟨0, 0, true, .block⟩
  paletteOverridden := false
  rows := [⟨0, []⟩]

/-- The same cell under another cursor. -/
def bar : FrameEnvelope := { block with cursor := ⟨0, 0, true, .bar⟩ }

/-- A red letter, in a palette that the program has set. -/
def red : FrameEnvelope :=
  { block with
    paletteOverridden := true
    rows := [⟨0, [.cells 0 (.simple ['x'])
      ⟨some (.idx 1), none, false, false, false, false, false, false, false, false, none, none,
        .none⟩]⟩] }

def hash (bytes : Bytes) : Str := bytes.map fun b => Char.ofNat b.toNat

/-- A sidecar of this build. -/
def sidecar (tier : Tier) (capture : Str) (tol : TolParams ℚ) (pixels : Option Str) :
    Fingerprint ℚ where
  fpSchema := 1
  schema := 1
  rendererFormatVersion := 1
  rasterFontFingerprint := []
  unicodeWidthVer := "16.0.0".toList
  tol := tier
  tolParams := tol
  maskHash := hash (utf8 "masks:v1".toList)
  platform := if tier = .cell then none else some "linux-x86_64".toList
  shuxVersion := "0.1.0".toList
  captureSha256 := hash (utf8 capture)
  rgbaSha256 := pixels
  pngSha256 := pixels
  scenarioHash := []
  cmdEnvHash := []

/-- The captures that are known, as they are written. -/
def captures : List (Str × FrameEnvelope) :=
  [("block".toList, block), ("bar".toList, bar), ("red".toList, red)]

def black : Bytes := [0, 0, 0, 0]

/-- The sidecars that are known, as they are written: two for captures alone, two for the blank
cell and its picture, under no tolerance and under every one. -/
def sidecars : List (Str × Fingerprint ℚ) :=
  [("plain".toList, sidecar .cell "block".toList ⟨0, 0⟩ none),
    ("tinted".toList, sidecar .cell "red".toList ⟨0, 0⟩ none),
    ("strict".toList, sidecar .pixel "block".toList ⟨0, 0⟩ (some (hash black))),
    ("loose".toList, sidecar .pixel "block".toList ⟨255, 1⟩ (some (hash black)))]

/-- What a table holds under a text. -/
def readFrom {α : Type} (table : List (Str × α)) (text : Str) : Except Str α :=
  match table.find? fun entry => decide (entry.1 = text) with
  | some entry => .ok entry.2
  | none => .error []

/-- The text a table holds a value under. -/
def textIn {α : Type} [DecidableEq α] (table : List (Str × α)) (value : α) : Except Str Str :=
  match table.find? fun entry => decide (entry.2 = value) with
  | some entry => .ok entry.1
  | none => .error []

theorem length_black : black.length = 4 * (1 * 1) := rfl

theorem length_grey : ([1, 0, 0, 0] : Bytes).length = 4 * (1 * 1) := rfl

scoped instance : Artifacts ℚ where
  sha256Hex := hash
  toCanonicalJson env := (textIn captures env).toOption.getD []
  fromCanonicalJson := readFrom captures
  fingerprintToJson := textIn sidecars
  fingerprintFromJson := readFrom sidecars
  renderEnvelope env :=
    if env = bar then ⟨1, 1, [1, 0, 0, 0], length_grey⟩ else ⟨1, 1, black, length_black⟩
  encodePng img := if img.width = 1 ∧ img.height = 1 then .ok img.raw else .error []
  decodePng bytes := if h : bytes.length = 4 then .ok ⟨1, 1, bytes, h⟩ else .error []
  builtinFontFingerprint := []
  unicodeWidthVersion := "16.0.0".toList
  osArch := "linux-x86_64".toList
  shuxVersion := "0.1.0".toList

def goldenStep : GoldenStep where
  name := "start".toList
  tier := .cell
  retries := 0
  holdMs := 0
  stableFrames := 1
  quietMs := 300
  timeoutMs := 10000
  masks := []
  xfail := none

/-- A golden directory with one golden. -/
def holding (capture sidecar : Str) : Goldens where
  captures := (∅ : FinMap Str (Option Str)).insert "start".toList (some capture)
  fingerprints := (∅ : FinMap Str (Option Str)).insert "start".toList (some sidecar)
  baselines := ∅

def cfg (goldens : Goldens) : Config where
  goldens
  goldenDir := "goldens".toList
  scenarioHash := []
  cmdEnvHash := []
  cliRetries := 0

/-- No guard refuses, and no file operation fails. -/
def world : BlessWorld where
  isCi := false
  scan _ := []
  treeIsDirty := false
  prepare := .ok ()
  write _ _ := .ok ()
  record _ := .ok ()
  writeManifest := .ok ()

end Shux.Gate.Sample
