/-
# Images

What the graphics path keeps: one chunked transmission in flight, the images a later
command may place, and the geometry of a placement. The bytes held by a store are
counted beside its images, and the count is what makes dropping one safe.
-/

import Shux.Lib.Checked

namespace Shux.Vt

open Checked List

/-- What the terminal takes from other crates: the display width of a scalar, `none` for
one that is not a glyph, and base64. -/
class Crates where
  width : Char → Option Nat
  decodeBase64 : List UInt8 → Option (List UInt8)

/-- Single-width text and no images, for runs that are worked out. -/
@[reducible]
def plainCrates : Crates := ⟨fun _ => some 1, fun _ => none⟩

/-- Bytes one image may occupy, and what a pane may hold in placements. -/
def maxImageBytes : Nat := 32 * 1024 * 1024

/-- Images a later command may name. -/
def maxStoredImages : Nat := 64

/-- Pixel size of one cell as declared to pane children. -/
def declaredCellPixels : Nat × Nat := (9, 19)

/-- Unsigned division, rounding up. -/
def divCeil (m n : Nat) : Nat := (m + n - 1) / n

/-- What the application asked the terminal to do. -/
inductive Action where
  | transmit
  | transmitAndPlace
  | put
  | delete
  | query
  | animation
deriving DecidableEq, Repr

/-- Pixel layout of a payload. -/
inductive Format where
  | rgba32
  | rgb24
  | png
deriving DecidableEq, Repr

/-- A parsed control block. -/
structure Command where
  action : Action
  imageId : Nat
  format : Format
  compressed : Bool
  more : Bool
  width : Nat
  height : Nat
  noCursorMove : Bool
  placementId : Nat
  srcX : Nat
  srcY : Nat
  srcW : Nat
  srcH : Nat
  cols : Nat
  rows : Nat
  delete : UInt8
  z : Int
deriving DecidableEq, Repr

def Command.default : Command where
  action := .transmit
  imageId := 0
  format := .rgba32
  compressed := false
  more := false
  width := 0
  height := 0
  noCursorMove := false
  placementId := 0
  srcX := 0
  srcY := 0
  srcW := 0
  srcH := 0
  cols := 0
  rows := 0
  delete := 0
  z := 0

/-- An image as it arrived, and what the client claimed about it. -/
structure StoredImage where
  payload : List UInt8
  format : Format
  compressed : Bool
  width : Nat
  height : Nat
deriving DecidableEq, Repr

/-- One chunked transmission, and the command that opened it. -/
structure Assembler where
  current : Option StoredImage
  opening : Command
deriving DecidableEq, Repr

namespace Assembler

def default : Assembler := ⟨none, .default⟩

def isOpen (assembler : Assembler) : Bool := assembler.current.isSome

def abort (assembler : Assembler) : Assembler := { assembler with current := none }

/-- Whether the payload of a finished transmission has the length its size declares. Only
a raw, uncompressed payload has one. -/
def lengthAgrees (image : StoredImage) : Bool :=
  let agrees (bpp : Nat) : Bool :=
    let pixels := image.width * image.height
    decide (pixels < 2 ^ 64) && decide (pixels * bpp < 2 ^ 64) &&
      image.payload.length == pixels * bpp
  match image.format with
  | .png => true
  | .rgba32 => image.compressed || agrees 4
  | .rgb24 => image.compressed || agrees 3

/-- Open a transmission with the command, unless one is open already. -/
def openWith (assembler : Assembler) (cmd : Command) : Assembler :=
  if assembler.current.isNone then
    ⟨some ⟨[], cmd.format, cmd.compressed, cmd.width, cmd.height⟩, cmd⟩
  else assembler

/-- Feed the payload of one command; a completed image comes with the command that opened
its transmission. -/
def feed [Crates] (assembler : Assembler) (cmd : Command) (payload : List UInt8) :
    Assembler × Option (StoredImage × Command) :=
  match Crates.decodeBase64 payload with
  | none => (assembler.abort, none)
  | some bytes =>
    let assembler := assembler.openWith cmd
    match assembler.current with
    | none => (assembler, none)
    | some image =>
      if maxImageBytes < image.payload.length + bytes.length then (assembler.abort, none)
      else
        let image := { image with payload := image.payload ++ bytes }
        if cmd.more then ({ assembler with current := some image }, none)
        else if lengthAgrees image then (assembler.abort, some (image, assembler.opening))
        else (assembler.abort, none)

end Assembler

/-- Transmitted images by id, most recently used last. -/
structure ImageStore where
  images : List (Nat × StoredImage)
  bytes : Nat
deriving DecidableEq, Repr

namespace ImageStore

variable (images : List (Nat × StoredImage))

def empty : ImageStore := ⟨[], 0⟩

/-- Payload bytes of a list of images. -/
def payloadBytes (images : List (Nat × StoredImage)) : Nat :=
  (images.map fun entry => entry.2.payload.length).sum

def retain (store : ImageStore) (keep : Nat → Bool) : Checked ImageStore := do
  let freed := payloadBytes (store.images.filter fun entry => !keep entry.1)
  let bytes ← sub store.bytes freed
  pure ⟨store.images.filter fun entry => keep entry.1, bytes⟩

/-- Drop the least recently used images until both bounds hold. -/
def evict : List (Nat × StoredImage) → Nat → Checked ImageStore
  | [], bytes => pure ⟨[], bytes⟩
  | entry :: images, bytes =>
    if maxStoredImages < (entry :: images).length ∨ maxImageBytes < bytes then do
      let bytes ← sub bytes entry.2.payload.length
      evict images bytes
    else pure ⟨entry :: images, bytes⟩

def insert (store : ImageStore) (id : Nat) (image : StoredImage) : Checked ImageStore := do
  let store ← store.retain (· != id)
  evict (store.images ++ [(id, image)]) (store.bytes + image.payload.length)

/-- The image under an id, now the most recently used. -/
def get (store : ImageStore) (id : Nat) : ImageStore × Option StoredImage :=
  match store.images.find? fun entry => entry.1 == id with
  | none => (store, none)
  | some entry =>
    ({ store with
        images := store.images.eraseP (fun entry => entry.1 == id) ++ [entry] },
      some entry.2)

def clear (_ : ImageStore) : ImageStore := empty

/-- The byte count is the payload of the images held. -/
def Balanced (store : ImageStore) : Prop := store.bytes = payloadBytes store.images

variable {store : ImageStore}

theorem balanced_empty : empty.Balanced := rfl

theorem payloadBytes_filter (keep : Nat → Bool) :
    payloadBytes (images.filter fun entry => keep entry.1) +
        payloadBytes (images.filter fun entry => !keep entry.1) =
      payloadBytes images := by
  induction images with
  | nil => rfl
  | cons entry images ih =>
    cases hkeep : keep entry.1 with
    | true =>
      simp only [payloadBytes, filter_cons, hkeep, map_cons, sum_cons] at ih ⊢
      simp only [if_true, Bool.not_true, Bool.false_eq_true, if_false, map_cons, sum_cons]
      omega
    | false =>
      simp only [payloadBytes, filter_cons, hkeep, map_cons, sum_cons] at ih ⊢
      simp only [if_true, Bool.not_false, Bool.false_eq_true, if_false, map_cons, sum_cons]
      omega

theorem Balanced.retain (h : store.Balanced) (keep : Nat → Bool) :
    Runs (store.retain keep) Balanced := by
  have hsplit := payloadBytes_filter store.images keep
  rw [Balanced] at h
  apply Runs.bind (.sub (by omega))
  rintro _ rfl
  apply Runs.pure
  show store.bytes - payloadBytes (store.images.filter fun entry => !keep entry.1) =
    payloadBytes (store.images.filter fun entry => keep entry.1)
  omega

theorem runs_evict : Runs (evict images (payloadBytes images)) Balanced := by
  induction images with
  | nil => exact .pure rfl
  | cons entry images ih =>
    rw [evict]
    apply Runs.ite
    · intro _
      have hcons : payloadBytes (entry :: images) =
          entry.2.payload.length + payloadBytes images := sum_cons
      apply Runs.bind (.sub (by omega))
      rintro _ rfl
      rw [hcons, Nat.add_sub_cancel_left]
      exact ih
    · exact fun _ => .pure rfl

theorem Balanced.insert (h : store.Balanced) (id : Nat) (image : StoredImage) :
    Runs (store.insert id image) Balanced := by
  apply Runs.bind (h.retain _)
  intro kept hkept
  have hbytes : kept.bytes + image.payload.length =
      payloadBytes (kept.images ++ [(id, image)]) := by
    rw [payloadBytes, map_append, sum_append, hkept]
    rfl
  rw [hbytes]
  exact runs_evict _

/-- Moving an image to the end of the list keeps the bytes. -/
theorem payloadBytes_moved {images : List (Nat × StoredImage)} {kind : Nat × StoredImage → Bool}
    {entry : Nat × StoredImage} (h : images.find? kind = some entry) :
    payloadBytes (images.eraseP kind ++ [entry]) = payloadBytes images := by
  simp only [payloadBytes, map_append, sum_append, map_cons, map_nil, sum_cons, sum_nil]
  induction images with
  | nil => cases h
  | cons first images ih =>
    cases hkind : kind first with
    | true =>
      rw [List.find?_cons_of_pos hkind] at h
      cases h
      rw [eraseP_cons_of_pos hkind, map_cons, sum_cons]
      omega
    | false =>
      have hneg : ¬kind first = true := by rw [hkind]; exact Bool.false_ne_true
      rw [List.find?_cons_of_neg hneg] at h
      rw [eraseP_cons_of_neg hneg, map_cons, sum_cons, map_cons, sum_cons, ← ih h]
      omega

theorem Balanced.get (h : store.Balanced) (id : Nat) : (store.get id).1.Balanced := by
  unfold ImageStore.get
  split
  · exact h
  · next entry hfind => exact h.trans (payloadBytes_moved hfind).symm

end ImageStore

/-- A rectangle of an image's own pixels. -/
structure PixelRect where
  x : Nat
  y : Nat
  w : Nat
  h : Nat
deriving DecidableEq, Repr

/-- Which part of an image a placement shows, and the cells it is fitted into. -/
structure ImageGeometry where
  crop : PixelRect
  display : Option (Nat × Nat)
deriving DecidableEq, Repr

namespace ImageGeometry

/-- The display box of a placement before it is capped: a missing side follows the aspect
of the crop. -/
def displayBox (c r w h : Nat) : Option (Nat × Nat) :=
  let (dw, dh) := declaredCellPixels
  if c = 0 ∧ r = 0 then none
  else if r = 0 then some (c, divCeil (c * dw * h) (w * dh))
  else if c = 0 then some (divCeil (r * dh * w) (h * dw), r)
  else some (c, r)

/-- From the source rectangle and display size of a command; `none` when the crop leaves
nothing. The display box is capped at `limit` cells, the pane. -/
def resolve (width height : Nat) (cmd : Command) (limit : Nat × Nat) :
    Checked (Option ImageGeometry) :=
  if width ≤ cmd.srcX ∨ height ≤ cmd.srcY then pure none
  else do
    let right ← sub width cmd.srcX
    let below ← sub height cmd.srcY
    let w := if cmd.srcW = 0 then right else min cmd.srcW right
    let h := if cmd.srcH = 0 then below else min cmd.srcH below
    if w = 0 ∨ h = 0 then pure none
    else
      let cap (n bound : Nat) : Nat := min n (max bound 1)
      let clamp (n bound : Nat) : Nat := max 1 (min (n % 2 ^ 64) (max bound 1))
      let display := (displayBox (cap cmd.cols limit.1) (cap cmd.rows limit.2) w h).map
        fun (c, r) => (clamp c limit.1, clamp r limit.2)
      pure (some ⟨⟨cmd.srcX, cmd.srcY, w, h⟩, display⟩)

/-- Cells the placement covers: its display box, or the crop at the declared cell size. -/
def cells (geometry : ImageGeometry) : Nat × Nat :=
  let (dw, dh) := declaredCellPixels
  geometry.display.getD (max (divCeil geometry.crop.w dw) 1, max (divCeil geometry.crop.h dh) 1)

theorem runs_resolve (width height : Nat) (cmd : Command) (limit : Nat × Nat) :
    Runs (resolve width height cmd limit) fun _ => True := by
  apply Runs.ite
  · exact fun _ => .pure trivial
  · intro hinside
    apply Runs.bind (.sub (by omega))
    intro right _
    apply Runs.bind (.sub (by omega))
    intro below _
    exact .ite (fun _ => .pure trivial) (fun _ => .pure trivial)

end ImageGeometry

/-- A picture placed in a grid, anchored to an absolute line. -/
structure Placement where
  image : StoredImage
  absRow : Nat
  col : Nat
  imageId : Nat
  placementId : Nat
  z : Int
  geometry : ImageGeometry
deriving DecidableEq, Repr

end Shux.Vt
