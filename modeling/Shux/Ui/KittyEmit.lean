/-
# Re-emitting images

An attached terminal holds its own copies of the pictures on the screen. Each frame names the
placements it wants, clipped to their panes, and what changed is sent: a new picture under a fresh
id, a moved one as a new placement of its old id, and an old one as a deletion after its
replacement is up.

The terminal is a store of pictures with one placement each. It holds what the emitter believes it
holds, after every frame.
-/

import Shux.Vt.Image

namespace Shux.Ui.KittyEmit

open Checked List Function
open Vt (StoredImage ImageGeometry PixelRect declaredCellPixels divCeil)

variable {placements : List ComposedPlacement}
variable {replaceAll : Bool} {e : KittyEmitter} {n : Nat}

/-- An unsigned result that its width holds. -/
def unsigned (bits n : Nat) : Checked Nat := if n < 2 ^ bits then some n else none

/-- A result that `i64` holds. -/
def signed (i : Int) : Checked Int := if -2 ^ 63 ≤ i ∧ i < 2 ^ 63 then some i else none

/-- `i64::saturating_add`. -/
def saturatingAdd (i j : Int) : Int := max (-2 ^ 63) (min (i + j) (2 ^ 63 - 1))

/-- A quotient, rounded down. -/
def quotient (m n : Nat) : Checked Nat := if n = 0 then none else some (m / n)

/-- A quotient, rounded up. -/
def quotientCeil (m n : Nat) : Checked Nat := if n = 0 then none else some (divCeil m n)

/-- A rectangle in cells. -/
structure CellRect where
  col : Nat
  row : Nat
  cols : Nat
  rows : Nat
  deriving DecidableEq

/-- A shared picture: where it is stored, and the picture. -/
structure Shared where
  address : Nat
  image : StoredImage
  deriving DecidableEq

/-- `Arc::ptr_eq`. -/
def Shared.ptrEq (a b : Shared) : Bool := decide (a.address = b.address)

/-- A placement in a composed frame. A negative row is above the frame. -/
structure ComposedPlacement where
  image : Shared
  row : Int
  col : Nat
  clip : CellRect
  geometry : ImageGeometry

/-- Where one placement was put, in the terms the terminal was told. -/
structure Placed where
  row : Nat
  col : Nat
  src : PixelRect
  cells : Nat × Nat
  deriving DecidableEq

/-- The drawn size in pixels for cells of a size. -/
def drawnPx (g : ImageGeometry) (cellW cellH : Nat) : Checked (Nat × Nat) :=
  let w := g.crop.w
  let h := g.crop.h
  match g.display with
  | none => do
    let scale (px cell declared : Nat) : Checked Nat := do
      let px ← unsigned 64 (px * cell)
      let px ← quotient px (max declared 1)
      return min (max px 1) (2 ^ 32 - 1)
    let w ← scale w cellW declaredCellPixels.1
    let h ← scale h cellH declaredCellPixels.2
    return (w, h)
  | some (cols, rows) => do
    let bw ← unsigned 64 (cols * cellW)
    let bh ← unsigned 64 (rows * cellH)
    let wbh ← unsigned 64 (w * bh)
    let hbw ← unsigned 64 (h * bw)
    if wbh ≤ hbw then
      let fit ← quotient wbh h
      return (max 1 (min fit (max bw 1)) % 2 ^ 32, max bh 1 % 2 ^ 32)
    else
      let fit ← quotient hbw w
      return (max bw 1 % 2 ^ 32, max 1 (min fit (max bh 1)) % 2 ^ 32)

/-- The cells of a drawn picture that its pane shows: the first row, and how many columns and rows
there are. -/
def shownCells (p : ComposedPlacement) (destW destH : Nat) :
    Checked (Option (Int × Int × Int)) := do
  let clipTop : Int := p.clip.row
  let natCols ← quotientCeil destW declaredCellPixels.1
  let natRows ← quotientCeil destH declaredCellPixels.2
  let natCols := max natCols 1
  let natRows := max natRows 1
  let top := max p.row clipTop
  let clipBottom ← signed (clipTop + p.clip.rows)
  let bottom := min (saturatingAdd p.row natRows) clipBottom
  let tall ← signed (bottom - top)
  let rows := max tall 0
  let natRight ← unsigned 64 (p.col + natCols)
  let clipRight ← unsigned 64 (p.clip.col + p.clip.cols)
  let right : Int := min natRight clipRight
  let wide ← signed (right - p.col)
  let cols := max wide 0
  if rows = 0 ∨ cols = 0 then return none
  return some (top, cols, rows)

/-- The start of a stretch in the source, rounded down. -/
def toSrc (v extent dest : Nat) : Checked Nat := do
  let px ← unsigned 64 (v * extent)
  let px ← quotient px dest
  return px % 2 ^ 32

/-- The end of a stretch in the source, rounded up. -/
def toSrcEnd (v extent dest : Nat) : Checked Nat := do
  let px ← unsigned 64 (v * extent)
  let px ← quotientCeil px dest
  return px % 2 ^ 32

/-- The part of a crop that so many columns and rows show, from a row of cells on. -/
def shownSource (crop : PixelRect) (destW destH : Nat) (above cols rows : Int) :
    Checked (Option PixelRect) := do
  let vy0 ← unsigned 64 (above.toNat * declaredCellPixels.2)
  let tall ← unsigned 64 (rows.toNat * declaredCellPixels.2)
  let vy1 ← unsigned 64 (vy0 + tall)
  let vy1 := min vy1 destH
  let vx1 ← unsigned 64 (cols.toNat * declaredCellPixels.1)
  let vx1 := min vx1 destW
  if vy1 ≤ vy0 ∨ vx1 = 0 then return none
  let start ← toSrc vy0 crop.h destH
  let y ← unsigned 32 (crop.y + start)
  let stop ← toSrcEnd vy1 crop.h destH
  let h ← sub stop start
  let w ← toSrcEnd vx1 crop.w destW
  if w = 0 ∨ h = 0 then return none
  return some ⟨crop.x, y, w, h⟩

/-- Intersect a placement with its pane, and find the part of the picture that shows there. -/
def resolve (p : ComposedPlacement) : Checked (Option Placed) :=
  if p.image.image.payload.isEmpty then pure none
  else do
    let (destW, destH) ← drawnPx p.geometry declaredCellPixels.1 declaredCellPixels.2
    match ← shownCells p destW destH with
    | none => return none
    | some (top, cols, rows) =>
      let above ← signed (top - p.row)
      match ← shownSource p.geometry.crop destW destH above cols rows with
      | none => return none
      | some src =>
        if top < 2 ^ 16 ∧ p.col < 2 ^ 16 ∧ cols < 2 ^ 16 ∧ rows < 2 ^ 16 then
          return some ⟨top.toNat, p.col, src, (cols.toNat, rows.toNat)⟩
        return none

/-- A placement as a pane makes it. The crop is inside of the picture and not empty, the display
box is capped at a pane, the pane is on a screen of at most `u16` cells and the placement does not
start left of it. Rows are differences of counts of lines. -/
structure ComposedPlacement.Ok (p : ComposedPlacement) : Prop where
  image : p.image.image.width < 2 ^ 32 ∧ p.image.image.height < 2 ^ 32
  crop : p.geometry.crop.x + p.geometry.crop.w ≤ p.image.image.width ∧
    p.geometry.crop.y + p.geometry.crop.h ≤ p.image.image.height
  visible : 0 < p.geometry.crop.w ∧ 0 < p.geometry.crop.h
  display : ∀ c r, p.geometry.display = some (c, r) → (0 < c ∧ c < 2 ^ 16) ∧ (0 < r ∧ r < 2 ^ 16)
  clip : p.clip.col + p.clip.cols < 2 ^ 16 ∧ p.clip.row + p.clip.rows < 2 ^ 16
  row : -2 ^ 62 ≤ p.row ∧ p.row < 2 ^ 62
  col : p.clip.col ≤ p.col ∧ p.col < 2 ^ 62

/-- What is shown of a placement: a nonempty part of the picture inside of its crop, on cells
inside of its pane. -/
structure Placed.Inside (placed : Placed) (p : ComposedPlacement) : Prop where
  nonempty : 0 < placed.src.w ∧ 0 < placed.src.h
  left : p.geometry.crop.x ≤ placed.src.x
  right : placed.src.x + placed.src.w ≤ p.geometry.crop.x + p.geometry.crop.w
  top : p.geometry.crop.y ≤ placed.src.y
  bottom : placed.src.y + placed.src.h ≤ p.geometry.crop.y + p.geometry.crop.h
  cols : p.clip.col ≤ placed.col ∧ placed.col + placed.cells.1 ≤ p.clip.col + p.clip.cols
  rows : p.clip.row ≤ placed.row ∧ placed.row + placed.cells.2 ≤ p.clip.row + p.clip.rows
  some : 0 < placed.cells.1 ∧ 0 < placed.cells.2

theorem divCeil_le {m k : Nat} (hn : 0 < n) (h : m ≤ k * n) : divCeil m n ≤ k := by
  rw [divCeil, Nat.div_le_iff_le_mul_add_pred hn]
  rw [Nat.mul_comm] at h
  omega

theorem le_divCeil_mul {m : Nat} (hn : 0 < n) : m ≤ divCeil m n * n := by
  rw [divCeil]
  have hmod := Nat.mod_lt (m + n - 1) hn
  have hdiv := Nat.div_add_mod (m + n - 1) n
  rw [Nat.mul_comm] at hdiv
  omega

theorem divCeil_mul_lt {m : Nat} (hn : 0 < n) : divCeil m n * n < m + n := by
  rw [divCeil]
  have hle := Nat.div_mul_le_self (m + n - 1) n
  omega

/-- A stretch that is scaled with its ends rounded outwards is not empty. -/
theorem scaled_lt {v0 v1 extent dest : Nat} (hv : v0 < v1) (hextent : 0 < extent)
    (hdest : 0 < dest) : v0 * extent / dest < divCeil (v1 * extent) dest := by
  rw [Nat.div_lt_iff_lt_mul hdest]
  calc v0 * extent < v1 * extent := Nat.mul_lt_mul_of_pos_right hv hextent
    _ ≤ divCeil (v1 * extent) dest * dest := le_divCeil_mul hdest

/-- And it stays in the extent. -/
theorem scaled_le {v extent dest : Nat} (hv : v ≤ dest) (hdest : 0 < dest) :
    divCeil (v * extent) dest ≤ extent := by
  refine divCeil_le hdest ?_
  rw [Nat.mul_comm]
  exact Nat.mul_le_mul_left extent hv

theorem lt_divCeil {m k : Nat} (hn : 0 < n) (h : k < divCeil m n) : k * n < m := by
  have hlt := divCeil_mul_lt (m := m) hn
  have hstep : (k + 1) * n ≤ divCeil m n * n := Nat.mul_le_mul_right n h
  rw [Nat.add_mul, Nat.one_mul] at hstep
  omega

theorem runs_unsigned {bits : Nat} (h : n < 2 ^ bits) : Runs (unsigned bits n) fun m => m = n := by
  rw [unsigned, if_pos h]
  exact .some rfl

theorem runs_signed {i : Int} (h : -2 ^ 63 ≤ i ∧ i < 2 ^ 63) : Runs (signed i) fun j => j = i := by
  rw [signed, if_pos h]
  exact .some rfl

theorem runs_quotient {m : Nat} (h : 0 < n) : Runs (quotient m n) fun q => q = m / n := by
  rw [quotient, if_neg (by omega)]
  exact .some rfl

theorem runs_quotientCeil {m : Nat} (h : 0 < n) :
    Runs (quotientCeil m n) fun q => q = divCeil m n := by
  rw [quotientCeil, if_neg (by omega)]
  exact .some rfl

variable {p : ComposedPlacement}

/-- A picture is drawn on at least one pixel, and on no more than a width of 32 bits counts. -/
theorem runs_drawnPx (h : p.Ok) {cw ch : Nat} (hcw : 0 < cw ∧ cw < 2 ^ 8)
    (hch : 0 < ch ∧ ch < 2 ^ 8) :
    Runs (drawnPx p.geometry cw ch) fun d =>
      (0 < d.1 ∧ d.1 < 2 ^ 32) ∧ (0 < d.2 ∧ d.2 < 2 ^ 32) := by
  obtain ⟨himage, hcrop, hvisible, hdisplay, -, -, -⟩ := h
  have hw : p.geometry.crop.w < 2 ^ 32 := by omega
  have hh : p.geometry.crop.h < 2 ^ 32 := by omega
  unfold drawnPx
  cases hbox : p.geometry.display with
  | none =>
    have hscale : ∀ px cell declared, px < 2 ^ 32 → cell < 2 ^ 8 →
        Runs (do
          let px ← unsigned 64 (px * cell)
          let px ← quotient px (max declared 1)
          return min (max px 1) (2 ^ 32 - 1)) fun d => 0 < d ∧ d < 2 ^ 32 := by
      intro px cell declared hpx hcell
      have hmul : px * cell < 2 ^ 32 * 2 ^ 8 := Nat.mul_lt_mul'' hpx hcell
      refine .bind (runs_unsigned (by omega)) fun n hn => ?_
      refine .bind (runs_quotient (by omega)) fun q hq => ?_
      exact .pure (by omega)
    refine .bind (hscale _ _ _ hw hcw.2) fun w hw => ?_
    refine .bind (hscale _ _ _ hh hch.2) fun h hh => ?_
    exact .pure ⟨hw, hh⟩
  | some box =>
    obtain ⟨cols, rows⟩ := box
    obtain ⟨hcols, hrows⟩ := hdisplay cols rows hbox
    have hbw : cols * cw < 2 ^ 16 * 2 ^ 8 := Nat.mul_lt_mul'' hcols.2 hcw.2
    have hbh : rows * ch < 2 ^ 16 * 2 ^ 8 := Nat.mul_lt_mul'' hrows.2 hch.2
    have hbwPos : 0 < cols * cw := Nat.mul_pos hcols.1 hcw.1
    have hbhPos : 0 < rows * ch := Nat.mul_pos hrows.1 hch.1
    refine .bind (runs_unsigned (by omega)) fun bw hbw' => ?_
    refine .bind (runs_unsigned (by omega)) fun bh hbh' => ?_
    subst hbw' hbh'
    have hwbh : p.geometry.crop.w * (rows * ch) < 2 ^ 32 * (2 ^ 16 * 2 ^ 8) :=
      Nat.mul_lt_mul'' hw hbh
    have hhbw : p.geometry.crop.h * (cols * cw) < 2 ^ 32 * (2 ^ 16 * 2 ^ 8) :=
      Nat.mul_lt_mul'' hh hbw
    refine .bind (runs_unsigned (by omega)) fun wbh _ => ?_
    refine .bind (runs_unsigned (by omega)) fun hbw _ => ?_
    refine .ite (fun _ => ?_) (fun _ => ?_)
    · refine .bind (runs_quotient hvisible.2) fun fit _ => ?_
      exact .pure (by omega)
    · refine .bind (runs_quotient hvisible.1) fun fit _ => ?_
      exact .pure (by omega)

/-- The shown cells are inside of the pane, and begin at a row that the picture has. -/
theorem runs_shownCells (h : p.Ok) {destW destH : Nat} (hdestW : destW < 2 ^ 32)
    (hdestH : 0 < destH ∧ destH < 2 ^ 32) :
    Runs (shownCells p destW destH) fun r => ∀ top cols rows, r = some (top, cols, rows) →
      (0 ≤ top - p.row ∧ (top - p.row).toNat * 19 < destH) ∧ (p.clip.row : Int) ≤ top ∧
        top + rows ≤ p.clip.row + p.clip.rows ∧ 0 < rows ∧ 0 < cols ∧
        p.col + cols ≤ p.clip.col + p.clip.cols := by
  obtain ⟨hclipCol, hclipRow⟩ := h.clip
  obtain ⟨hrowLow, hrowHigh⟩ := h.row
  obtain ⟨hcolLeft, hcolHigh⟩ := h.col
  unfold shownCells
  refine .bind (runs_quotientCeil (by decide)) fun natCols hnatCols => ?_
  refine .bind (runs_quotientCeil (by decide)) fun natRows hnatRows => ?_
  have hcolsLe : natCols ≤ 2 ^ 32 := by
    rw [hnatCols]
    exact divCeil_le (by decide) (Nat.le_trans hdestW.le (Nat.le_mul_of_pos_right _ (by decide)))
  have hrowsLe : natRows ≤ 2 ^ 32 := by
    rw [hnatRows]
    exact divCeil_le (by decide) (Nat.le_trans hdestH.2.le (Nat.le_mul_of_pos_right _ (by decide)))
  -- a row before the last one of the picture is drawn in full
  have hbefore : ∀ k, k < natRows → k * 19 < destH := by
    intro k hk
    rw [hnatRows] at hk
    exact lt_divCeil (by decide) hk
  have hsaturates : saturatingAdd p.row ((max natRows 1 : Nat) : Int) =
      p.row + (max natRows 1 : Nat) := by
    rw [saturatingAdd]
    omega
  clear hnatCols hnatRows
  refine .bind (runs_signed (by omega)) fun clipBottom hclipBottom => ?_
  rw [hsaturates]
  refine .bind (runs_signed (by omega)) fun tall htall => ?_
  refine .bind (runs_unsigned (by omega)) fun natRight hnatRight => ?_
  refine .bind (runs_unsigned (by omega)) fun clipRight hclipRight => ?_
  refine .bind (runs_signed (by omega)) fun wide hwide => ?_
  refine .ite (fun _ => .pure nofun) (fun hshown => ?_)
  rw [not_or] at hshown
  refine .pure fun top cols rows hsome => ?_
  cases hsome
  refine ⟨⟨by omega, ?_⟩, by omega, by omega, by omega, by omega, by omega⟩
  by_cases hnone : natRows = 0
  · have hzero : (max p.row p.clip.row - p.row).toNat = 0 := by omega
    rw [hzero, Nat.zero_mul]
    exact hdestH.1
  · exact hbefore _ (by omega)

theorem runs_toSrc {v extent dest : Nat} (hv : v ≤ dest) (hdest : 0 < dest ∧ dest < 2 ^ 32)
    (hextent : extent < 2 ^ 32) :
    Runs (toSrc v extent dest) fun px => px = v * extent / dest := by
  have hmul : v * extent ≤ dest * extent := Nat.mul_le_mul_right _ hv
  have hbound : dest * extent < 2 ^ 32 * 2 ^ 32 := Nat.mul_lt_mul'' hdest.2 hextent
  have hdiv : v * extent / dest ≤ extent := by
    rw [Nat.div_le_iff_le_mul_add_pred hdest.1]
    omega
  refine .bind (runs_unsigned (by omega)) fun px hpx => ?_
  refine .bind (runs_quotient hdest.1) fun q hq => ?_
  refine .pure ?_
  rw [hq, hpx]
  exact Nat.mod_eq_of_lt (by omega)

theorem runs_toSrcEnd {v extent dest : Nat} (hv : v ≤ dest) (hdest : 0 < dest ∧ dest < 2 ^ 32)
    (hextent : extent < 2 ^ 32) :
    Runs (toSrcEnd v extent dest) fun px => px = divCeil (v * extent) dest := by
  have hmul : v * extent ≤ dest * extent := Nat.mul_le_mul_right _ hv
  have hbound : dest * extent < 2 ^ 32 * 2 ^ 32 := Nat.mul_lt_mul'' hdest.2 hextent
  have hdiv : divCeil (v * extent) dest ≤ extent := scaled_le hv hdest.1
  refine .bind (runs_unsigned (by omega)) fun px hpx => ?_
  refine .bind (runs_quotientCeil hdest.1) fun q hq => ?_
  refine .pure ?_
  rw [hq, hpx]
  exact Nat.mod_eq_of_lt (by omega)

/-- Some of a crop shows on cells that the picture is drawn on. -/
theorem runs_shownSource {crop : PixelRect} {destW destH : Nat} {above cols rows : Int}
    (hcrop : (0 < crop.w ∧ crop.w < 2 ^ 32) ∧ 0 < crop.h ∧ crop.y + crop.h < 2 ^ 32)
    (hdestW : 0 < destW ∧ destW < 2 ^ 32) (hdestH : 0 < destH ∧ destH < 2 ^ 32)
    (habove : above.toNat * 19 < destH) (hcols : cols < 2 ^ 32) (hrows : rows < 2 ^ 32) :
    Runs (shownSource crop destW destH above cols rows) fun r => ∀ src, r = some src →
      (0 < src.w ∧ 0 < src.h) ∧ src.x = crop.x ∧ src.w ≤ crop.w ∧ crop.y ≤ src.y ∧
        src.y + src.h ≤ crop.y + crop.h := by
  unfold shownSource
  simp only [declaredCellPixels]
  refine .bind (runs_unsigned (by omega)) fun vy0 hvy0 => ?_
  refine .bind (runs_unsigned (by omega)) fun tall htall => ?_
  refine .bind (runs_unsigned (by omega)) fun vy1 hvy1 => ?_
  refine .bind (runs_unsigned (by omega)) fun vx1 hvx1 => ?_
  refine .ite (fun _ => .pure nofun) (fun hrange => ?_)
  rw [not_or, Nat.not_le] at hrange
  obtain ⟨hvy, hvx⟩ := hrange
  have hlt := scaled_lt hvy hcrop.2.1 hdestH.1
  have hleH : divCeil (min vy1 destH * crop.h) destH ≤ crop.h :=
    scaled_le (min_le_right _ _) hdestH.1
  have hleW : divCeil (min vx1 destW * crop.w) destW ≤ crop.w :=
    scaled_le (min_le_right _ _) hdestW.1
  have hposW := scaled_lt (Nat.pos_of_ne_zero hvx) hcrop.1.1 hdestW.1
  refine .bind (runs_toSrc (by omega) hdestH (by omega)) fun start hstart => ?_
  rw [← hstart] at hlt
  refine .bind (runs_unsigned (by omega)) fun y hy => ?_
  refine .bind (runs_toSrcEnd (min_le_right _ _) hdestH (by omega)) fun stop hstop => ?_
  rw [← hstop] at hlt hleH
  refine .bind (.sub hlt.le) fun h hh => ?_
  refine .bind (runs_toSrcEnd (min_le_right _ _) hdestW hcrop.1.2) fun w hw => ?_
  rw [← hw] at hleW hposW
  rw [Nat.zero_mul, Nat.zero_div] at hposW
  refine .ite (fun _ => .pure nofun) (fun _ => ?_)
  refine .pure fun src hsrc => ?_
  cases hsrc
  refine ⟨⟨hposW, ?_⟩, rfl, hleW, ?_, ?_⟩ <;> simp only <;> omega

/-- Resolving a placement does not panic. What it shows is a nonempty part of the picture inside
of its crop, on cells inside of its pane. -/
theorem runs_resolve (h : p.Ok) :
    Runs (resolve p) fun r => ∀ placed, r = some placed → placed.Inside p := by
  obtain ⟨hclipCol, hclipRow⟩ := h.clip
  obtain ⟨hrowLow, hrowHigh⟩ := h.row
  have hcolLeft := h.col.1
  obtain ⟨hcropW, hcropH⟩ := h.visible
  obtain ⟨hright, hbelow⟩ := h.crop
  obtain ⟨himageW, himageH⟩ := h.image
  unfold resolve
  refine .ite (fun _ => .pure nofun) (fun _ => ?_)
  refine .bind (runs_drawnPx h (by decide) (by decide)) fun dest hdest => ?_
  obtain ⟨destW, destH⟩ := dest
  obtain ⟨hdestW, hdestH⟩ := hdest
  refine .bind (runs_shownCells h hdestW.2 hdestH) fun cells hcells => ?_
  cases cells with
  | none => exact .pure nofun
  | some cells =>
    obtain ⟨top, cols, rows⟩ := cells
    obtain ⟨⟨hnonneg, habove⟩, htop, hbottom, hrows, hcols, hend⟩ := hcells top cols rows rfl
    refine .bind (runs_signed (by omega)) fun above habove' => ?_
    rw [← habove'] at habove
    refine .bind (runs_shownSource ⟨⟨hcropW, by omega⟩, hcropH, by omega⟩ hdestW hdestH habove
      (by omega) (by omega)) fun src hsrc => ?_
    cases src with
    | none => exact .pure nofun
    | some src =>
      obtain ⟨hnonempty, hx, hw, hy, hh⟩ := hsrc src rfl
      refine .ite (fun _ => ?_) (fun _ => .pure nofun)
      refine .pure fun placed hplaced => ?_
      cases hplaced
      refine ⟨hnonempty, hx.ge, ?_, hy, hh, ⟨hcolLeft, ?_⟩, ⟨?_, ?_⟩, ?_, ?_⟩ <;> simp only <;>
        omega

/-- Host image ids start here. -/
def hostIdBase : Nat := 2000000000

/-- Base64 image bytes one frame may emit. -/
def frameImageBudget : Nat := 6 * 1024 * 1024

/-- What the emitter believes of one image on the terminal. -/
structure Live where
  image : Shared
  hostId : Nat
  placed : Placed

/-- What the terminal holds, for one attach. -/
structure KittyEmitter where
  live : List Live
  nextId : Nat

def KittyEmitter.default : KittyEmitter := ⟨[], 0⟩

/-- What is sent to the terminal about images: a picture with its placement, another placement of
a picture, the deletion of a picture with its placement. -/
inductive HostCommand where
  | transmit (id : Nat) (image : StoredImage) (placed : Placed)
  | put (id : Nat) (placed : Placed)
  | delete (id : Nat)
  deriving DecidableEq

/-- A placement and what shows of it. -/
abbrev Wanted := ComposedPlacement × Placed

/-- The placements of a frame that show something. -/
def resolveAll : List ComposedPlacement → Checked (List Wanted)
  | [] => pure []
  | p :: rest => do
    let placed ← resolve p
    let rest ← resolveAll rest
    return (placed.map (p, ·)).toList ++ rest

/-- Base64 bytes of a picture. -/
def cost (p : ComposedPlacement) : Nat := divCeil p.image.image.payload.length 3 * 4

/-- The placements that a frame has room for, whether or not it transmits them again. -/
def keepWithin : Nat → List Wanted → List Wanted
  | _, [] => []
  | spent, w :: rest =>
    if frameImageBudget < spent + cost w.1 then keepWithin spent rest
    else w :: keepWithin (spent + cost w.1) rest

/-- The next host id, and the one after it. -/
def takeId (nextId : Nat) : Nat × Nat := ((hostIdBase + nextId) % 2 ^ 32, (nextId + 1) % 2 ^ 32)

/-- Bring the live images in step with the wanted ones, position by position, then retire the
rest. -/
def sync (replaceAll : Bool) : List Wanted → List Live → Nat →
    List HostCommand × List Live × Nat
  | [], live, nextId => (live.map fun gone => .delete gone.hostId, [], nextId)
  | (p, placed) :: want, old :: live, nextId =>
    if old.image.ptrEq p.image then
      let (cmds, live, nextId) := sync replaceAll want live nextId
      if old.placed = placed && !replaceAll then (cmds, old :: live, nextId)
      else (.put old.hostId placed :: cmds, { old with placed } :: live, nextId)
    else
      let (id, nextId) := takeId nextId
      let (cmds, live, nextId) := sync replaceAll want live nextId
      -- The old id stays live until the replacement is up.
      (.transmit id p.image.image placed :: .delete old.hostId :: cmds,
        ⟨p.image, id, placed⟩ :: live, nextId)
  | (p, placed) :: want, [], nextId =>
    let (id, nextId) := takeId nextId
    let (cmds, live, nextId) := sync replaceAll want [] nextId
    (.transmit id p.image.image placed :: cmds, ⟨p.image, id, placed⟩ :: live, nextId)

/-- Emit whatever a frame changed. `replaceAll` re-issues every placement even when nothing
moved. -/
def emit (e : KittyEmitter) (placements : List ComposedPlacement) (replaceAll : Bool) :
    Checked (List HostCommand × KittyEmitter) := do
  let resolved ← resolveAll placements
  let want := keepWithin 0 resolved
  if want.isEmpty && e.live.isEmpty then return ([], e)
  let (cmds, live, nextId) := sync replaceAll want e.live e.nextId
  return (cmds, ⟨live, nextId⟩)

/-! ## The terminal -/

/-- The pictures of a terminal by id, each with its placement. -/
abbrev Host := Nat → Option (StoredImage × Placed)

/-- Carry a command out. Only a picture that is there can be placed again. -/
def Host.apply (host : Host) : HostCommand → Host
  | .transmit id image placed => update host id (some (image, placed))
  | .put id placed => update host id ((host id).map fun held => (held.1, placed))
  | .delete id => update host id none

/-- A terminal that was sent so many commands. -/
def hostAfter (log : List HostCommand) : Host := log.foldl Host.apply fun _ => none

namespace HostCommand

def isTransmit : HostCommand → Bool
  | transmit .. => true
  | _ => false

def transmits (id : Nat) : HostCommand → Bool
  | transmit i _ _ => decide (i = id)
  | _ => false

def deletes (id : Nat) : HostCommand → Bool
  | delete i => decide (i = id)
  | _ => false

theorem transmits_transmit (id i : Nat) (image : StoredImage) (placed : Placed) :
    (transmit i image placed).transmits id = decide (i = id) := rfl

theorem transmits_delete (id i : Nat) : (delete i).transmits id = false := rfl

theorem deletes_transmit (id i : Nat) (image : StoredImage) (placed : Placed) :
    (transmit i image placed).deletes id = false := rfl

theorem deletes_delete (id i : Nat) : (delete i).deletes id = decide (i = id) := rfl

end HostCommand

open HostCommand

/-- What a live image shows. -/
def Live.shown (l : Live) : StoredImage × Placed := (l.image.image, l.placed)

/-- What a wanted placement shows. -/
def shownOf (w : Wanted) : StoredImage × Placed := (w.1.image.image, w.2)

/-- The terminal that was sent `log` holds the live images and nothing else. Ids were given out in
turn, each once, and those that are not live any more were deleted once. -/
structure Mirrors (live : List Live) (nextId : Nat) (log : List HostCommand) : Prop where
  counted : nextId = log.countP isTransmit
  given : ∀ id, log.countP (transmits id) =
    if hostIdBase ≤ id ∧ id < hostIdBase + nextId then 1 else 0
  retired : ∀ id, log.countP (deletes id) + live.countP (fun l => decide (l.hostId = id)) =
    log.countP (transmits id)
  holds : ∀ id held, hostAfter log id = some held ↔ ∃ l ∈ live, l.hostId = id ∧ l.shown = held

namespace Mirrors

variable {live live' : List Live} {nextId : Nat} {log : List HostCommand}

theorem start : Mirrors [] 0 [] where
  counted := rfl
  given id := by
    rw [if_neg (by omega)]
    rfl
  retired id := rfl
  holds id held := by simp [hostAfter]

section

variable (h : Mirrors live nextId log)
include h

theorem perm (hperm : live.Perm live') : Mirrors live' nextId log where
  counted := h.counted
  given := h.given
  retired id := by
    rw [← hperm.countP_eq]
    exact h.retired id
  holds id held := by
    rw [h.holds]
    exact exists_congr fun l => and_congr_left fun _ => hperm.mem_iff

/-- No live image has an id that was not given out. -/
theorem lt_of_mem {l : Live} (hl : l ∈ live) :
    hostIdBase ≤ l.hostId ∧ l.hostId < hostIdBase + nextId := by
  by_contra hnot
  have hgiven := h.given l.hostId
  rw [if_neg hnot] at hgiven
  have hretired := h.retired l.hostId
  have hpos : 0 < live.countP (fun m => decide (m.hostId = l.hostId)) :=
    countP_pos_iff.2 ⟨l, hl, decide_eq_true rfl⟩
  omega

theorem nodup : (live.map Live.hostId).Nodup := by
  rw [nodup_iff_count_le_one]
  intro id
  have hcount :
      (live.map Live.hostId).count id = live.countP (fun l => decide (l.hostId = id)) := by
    rw [List.count, countP_map]
    exact countP_congr fun l _ => by simp
  have hgiven := h.given id
  have hretired := h.retired id
  rw [hcount]
  split_ifs at hgiven <;> omega

/-- A new picture is transmitted under the next id. -/
theorem fresh (image : Shared) (placed : Placed) :
    Mirrors (⟨image, hostIdBase + nextId, placed⟩ :: live) (nextId + 1)
      (log ++ [.transmit (hostIdBase + nextId) image.image placed]) where
  counted := by
    rw [countP_append, ← h.counted]
    rfl
  given id := by
    rw [countP_append, h.given, countP_singleton, transmits_transmit]
    simp only [decide_eq_true_eq]
    split_ifs <;> omega
  retired id := by
    have hretired := h.retired id
    rw [countP_append, countP_append, countP_singleton, countP_singleton,
      countP_cons, deletes_transmit, transmits_transmit, if_neg Bool.false_ne_true]
    dsimp only
    omega
  holds id held := by
    rw [hostAfter, foldl_append, ← hostAfter]
    show update (hostAfter log) (hostIdBase + nextId) _ id = _ ↔ _
    rw [update_apply]
    have hnew : ∀ l ∈ live, l.hostId ≠ hostIdBase + nextId := fun l hl => by
      have hlt := h.lt_of_mem hl
      omega
    split_ifs with hid
    · subst hid
      simp only [mem_cons, exists_eq_or_imp, Live.shown, true_and, Option.some.injEq]
      refine ⟨Or.inl, fun hor => hor.resolve_right ?_⟩
      rintro ⟨l, hl, hlid, -⟩
      exact hnew l hl hlid
    · rw [h.holds]
      simp only [mem_cons, exists_eq_or_imp]
      refine ⟨Or.inr, fun hor => hor.resolve_left ?_⟩
      rintro ⟨hlid, -⟩
      exact hid hlid.symm

end

/-- An image is retired by its deletion. -/
theorem retire {l : Live} (h : Mirrors (l :: live) nextId log) :
    Mirrors live nextId (log ++ [.delete l.hostId]) where
  counted := by
    rw [countP_append, h.counted]
    rfl
  given id := by
    rw [countP_append, h.given]
    rfl
  retired id := by
    have hretired := h.retired id
    rw [countP_cons] at hretired
    rw [countP_append, countP_append, countP_singleton, countP_singleton,
      deletes_delete, transmits_delete, if_neg Bool.false_ne_true]
    omega
  holds id held := by
    rw [hostAfter, foldl_append, ← hostAfter]
    show update (hostAfter log) l.hostId none id = _ ↔ _
    rw [update_apply]
    have hnodup := h.nodup
    rw [map_cons, nodup_cons] at hnodup
    split_ifs with hid
    · refine iff_of_false nofun ?_
      rintro ⟨m, hm, hmid, -⟩
      exact hnodup.1 (mem_map.2 ⟨m, hm, hmid.trans hid⟩)
    · rw [h.holds]
      simp only [mem_cons, exists_eq_or_imp]
      refine ⟨fun hor => hor.resolve_left ?_, Or.inr⟩
      rintro ⟨hlid, -⟩
      exact hid hlid.symm

/-- A live picture is placed again. -/
theorem put {l : Live} (h : Mirrors (l :: live) nextId log) (placed : Placed) :
    Mirrors ({ l with placed } :: live) nextId (log ++ [.put l.hostId placed]) where
  counted := by
    rw [countP_append, h.counted]
    rfl
  given id := by
    rw [countP_append, h.given]
    rfl
  retired id := by
    have hretired := h.retired id
    rw [countP_cons] at hretired ⊢
    rw [countP_append, countP_append]
    exact hretired
  holds id held := by
    rw [hostAfter, foldl_append, ← hostAfter]
    show update (hostAfter log) l.hostId _ id = _ ↔ _
    rw [update_apply]
    have hnodup := h.nodup
    rw [map_cons, nodup_cons] at hnodup
    have hheld : hostAfter log l.hostId = some l.shown :=
      (h.holds _ _).2 ⟨l, mem_cons_self, rfl, rfl⟩
    split_ifs with hid
    · subst hid
      simp only [hheld, Option.map_some, Option.some.injEq, mem_cons, exists_eq_or_imp,
        Live.shown, true_and]
      refine ⟨Or.inl, fun hor => hor.resolve_right ?_⟩
      rintro ⟨m, hm, hmid, -⟩
      exact hnodup.1 (mem_map.2 ⟨m, hm, hmid⟩)
    · rw [h.holds]
      simp only [mem_cons, exists_eq_or_imp]
      refine or_congr_left ?_
      exact iff_of_false (fun hl => hid hl.1.symm) fun hl => hid hl.1.symm

end Mirrors

variable {log : List HostCommand}

/-- The rest of the live images is retired. -/
theorem Mirrors.drain {before gone : List Live} {nextId : Nat}
    (h : Mirrors (before ++ gone) nextId log) :
    Mirrors before nextId (log ++ gone.map fun l => .delete l.hostId) := by
  induction gone generalizing log with
  | nil => simpa using h
  | cons l gone ih =>
    have hretired := (h.perm perm_middle).retire
    have hrest := ih hretired
    rw [append_assoc] at hrest
    exact hrest

/-- Pictures that are stored at one place are one. -/
def Coherent (live : List Live) (want : List Wanted) : Prop :=
  ∀ l ∈ live, ∀ w ∈ want, l.image.address = w.1.image.address → l.image = w.1.image

/-- The live images that are behind the position of the loop stay as they are, and the terminal is
in step after the rest. -/
theorem Mirrors.sync {want : List Wanted} {before live : List Live}
    {nextId : Nat} {log : List HostCommand} (h : Mirrors (before ++ live) nextId log)
    (hcoherent : Coherent live want)
    (hfew : (log ++ (sync replaceAll want live nextId).1).countP isTransmit < 2 ^ 31) :
    Mirrors (before ++ (sync replaceAll want live nextId).2.1)
        (sync replaceAll want live nextId).2.2 (log ++ (sync replaceAll want live nextId).1) ∧
      (sync replaceAll want live nextId).2.1.map Live.shown = want.map shownOf := by
  induction want generalizing before live nextId log with
  | nil =>
    rw [KittyEmit.sync, append_nil]
    exact ⟨h.drain, rfl⟩
  | cons w want ih =>
    obtain ⟨p, placed⟩ := w
    have hlt : nextId < 2 ^ 31 := by
      rw [countP_append, ← h.counted] at hfew
      omega
    have hid : (hostIdBase + nextId) % 2 ^ 32 = hostIdBase + nextId :=
      Nat.mod_eq_of_lt (by rw [hostIdBase]; omega)
    have hnext : (nextId + 1) % 2 ^ 32 = nextId + 1 := Nat.mod_eq_of_lt (by omega)
    cases live with
    | nil =>
      rw [KittyEmit.sync] at hfew ⊢
      simp only [takeId, hid, hnext] at hfew ⊢
      rw [append_nil] at h
      have hfresh := (h.fresh p.image placed).perm (perm_append_singleton _ before).symm
      rw [← singleton_append (x := HostCommand.transmit _ _ _), ← append_assoc] at hfew ⊢
      have hrest := @ih (before ++ [⟨p.image, hostIdBase + nextId, placed⟩]) [] _ _
        (by simpa using hfresh) (fun l hl => by cases hl) hfew
      refine ⟨by simpa using hrest.1, ?_⟩
      rw [map_cons, map_cons, hrest.2]
      rfl
    | cons old live =>
      have hcoherent' : Coherent live want := fun l hl w hw =>
        hcoherent l (mem_cons_of_mem _ hl) w (mem_cons_of_mem _ hw)
      have hsplit : before ++ old :: live = (before ++ [old]) ++ live := by simp
      rw [KittyEmit.sync] at hfew ⊢
      by_cases hptr : old.image.ptrEq p.image = true
      · rw [if_pos hptr] at hfew ⊢
        have himage : old.image = p.image := hcoherent old mem_cons_self (p, placed)
          mem_cons_self (by simpa [Shared.ptrEq] using hptr)
        by_cases hstays : (decide (old.placed = placed) && !replaceAll) = true
        · simp only [if_pos hstays] at hfew ⊢
          rw [hsplit] at h
          have hrest := ih h hcoherent' hfew
          refine ⟨by simpa using hrest.1, ?_⟩
          rw [Bool.and_eq_true, decide_eq_true_eq] at hstays
          rw [map_cons, map_cons, hrest.2, Live.shown, shownOf, himage, hstays.1]
        · simp only [if_neg hstays] at hfew ⊢
          have hput := ((h.perm perm_middle).put placed).perm perm_middle.symm
          rw [← singleton_append (x := HostCommand.put _ _), ← append_assoc] at hfew ⊢
          have hrest := @ih (before ++ [{ old with placed }]) _ _ _ (by simpa using hput)
            hcoherent' hfew
          refine ⟨by simpa using hrest.1, ?_⟩
          rw [map_cons, map_cons, hrest.2, Live.shown, shownOf, himage]
      · rw [if_neg hptr] at hfew ⊢
        simp only [takeId, hid, hnext] at hfew ⊢
        have hfresh := h.fresh p.image placed
        have hperm : ∀ new : Live,
            (new :: (before ++ old :: live)).Perm (old :: (before ++ new :: live)) := fun new =>
          calc
            _ ~ new :: old :: (before ++ live) := perm_middle.cons _
            _ ~ old :: new :: (before ++ live) := .swap ..
            _ ~ old :: (before ++ new :: live) := perm_middle.symm.cons _
        have hretired := (hfresh.perm (hperm _)).retire
        rw [append_assoc] at hretired
        rw [show ∀ cmds : List HostCommand, HostCommand.transmit (hostIdBase + nextId) p.image.image
          placed :: HostCommand.delete old.hostId :: cmds = [.transmit (hostIdBase + nextId)
            p.image.image placed, .delete old.hostId] ++ cmds from fun _ => rfl,
          ← append_assoc] at hfew ⊢
        have hrest := @ih (before ++ [⟨p.image, hostIdBase + nextId, placed⟩]) _ _ _
          (by simpa using hretired) hcoherent' (by simpa using hfew)
        refine ⟨by simpa using hrest.1, ?_⟩
        rw [map_cons, map_cons, hrest.2]
        rfl

theorem runs_resolveAll (h : ∀ p ∈ placements, p.Ok) :
    Runs (resolveAll placements) fun want => ∀ w ∈ want, w.1 ∈ placements ∧ w.2.Inside w.1 := by
  induction placements with
  | nil => exact .pure nofun
  | cons p placements ih =>
    refine .bind (runs_resolve (h p mem_cons_self)) fun placed hplaced => ?_
    refine .bind (ih fun q hq => h q (mem_cons_of_mem _ hq)) fun rest hrest => ?_
    refine .pure fun w hw => ?_
    rcases mem_append.1 hw with hw | hw
    · rw [Option.mem_toList, Option.map_eq_some_iff] at hw
      obtain ⟨shown, hshown, rfl⟩ := hw
      exact ⟨mem_cons_self, hplaced shown hshown⟩
    · exact ⟨mem_cons_of_mem _ (hrest w hw).1, (hrest w hw).2⟩

theorem mem_of_mem_keepWithin {spent : Nat} {want : List Wanted} {w : Wanted}
    (h : w ∈ keepWithin spent want) : w ∈ want := by
  induction want generalizing spent with
  | nil => cases h
  | cons v want ih =>
    rw [keepWithin] at h
    split_ifs at h
    · exact mem_cons_of_mem _ (ih h)
    · rcases mem_cons.1 h with rfl | h
      · exact mem_cons_self
      · exact mem_cons_of_mem _ (ih h)

/-- An emitter that is asked to keep nothing and has nothing sends nothing. -/
theorem emit_eq {resolved : List Wanted} (h : resolveAll placements = some resolved) :
    emit e placements replaceAll =
      some ((sync replaceAll (keepWithin 0 resolved) e.live e.nextId).1,
        ⟨(sync replaceAll (keepWithin 0 resolved) e.live e.nextId).2.1,
          (sync replaceAll (keepWithin 0 resolved) e.live e.nextId).2.2⟩) := by
  rw [emit, h]
  show (if _ then _ else _) = _
  split_ifs with hnone
  · rw [Bool.and_eq_true, List.isEmpty_iff, List.isEmpty_iff] at hnone
    obtain ⟨live, nextId⟩ := e
    rw [hnone.1, show live = [] from hnone.2]
    rfl
  · rfl

/-- Frames emitted one after the other, and what was sent by then. A picture stays where it is
stored as long as the emitter holds it. -/
inductive Emitted : KittyEmitter → List HostCommand → Prop
  | start : Emitted .default []
  | frame {e e' : KittyEmitter} {log cmds : List HostCommand}
      {placements : List ComposedPlacement} {replaceAll : Bool} (h : Emitted e log)
      (ok : ∀ p ∈ placements, p.Ok)
      (stored : ∀ l ∈ e.live, ∀ p ∈ placements, l.image.address = p.image.address →
        l.image = p.image)
      (emits : emit e placements replaceAll = some (cmds, e')) : Emitted e' (log ++ cmds)

/-- One more frame keeps the terminal in step. -/
theorem Mirrors.emit (h : Mirrors e.live e.nextId log) {resolved : List Wanted}
    (hresolved : resolveAll placements = some resolved)
    (hmem : ∀ w ∈ resolved, w.1 ∈ placements)
    (hstored : ∀ l ∈ e.live, ∀ p ∈ placements, l.image.address = p.image.address →
      l.image = p.image) {cmds : List HostCommand} {e' : KittyEmitter}
    (hemits : KittyEmit.emit e placements replaceAll = some (cmds, e'))
    (hfew : (log ++ cmds).countP isTransmit < 2 ^ 31) :
    Mirrors e'.live e'.nextId (log ++ cmds) ∧
      e'.live.map Live.shown = (keepWithin 0 resolved).map shownOf := by
  rw [emit_eq hresolved] at hemits
  cases hemits
  have hcoherent : Coherent e.live (keepWithin 0 resolved) := fun l hl w hw =>
    hstored l hl w.1 (hmem w (mem_of_mem_keepWithin hw))
  have hsync := @Mirrors.sync replaceAll _ [] e.live _ _ h hcoherent hfew
  exact hsync

theorem Emitted.mirrors (h : Emitted e log)
    (hfew : log.countP isTransmit < 2 ^ 31) : Mirrors e.live e.nextId log := by
  induction h with
  | start => exact .start
  | frame hrun ok stored emits ih =>
    have hbefore := ih (by rw [countP_append] at hfew; omega)
    obtain ⟨resolved, hresolved, hmem⟩ := runs_resolveAll ok
    exact (hbefore.emit hresolved (fun w hw => (hmem w hw).1) stored emits hfew).1

/-- A frame of any run is emitted without a panic, and every placement that resolves shows a
nonempty part of its crop on cells of its pane. With fewer than 2^31 transmissions the terminal
then holds the placements that were kept, in order, each with its picture and its geometry, and
nothing else; no id is in use twice, and every id that was given out and is not in use has been
deleted once. -/
theorem reemission_in_step {e : KittyEmitter} {log : List HostCommand} (hrun : Emitted e log)
    {placements : List ComposedPlacement} (hok : ∀ p ∈ placements, p.Ok)
    (hstored : ∀ l ∈ e.live, ∀ p ∈ placements, l.image.address = p.image.address →
      l.image = p.image) (replaceAll : Bool) :
    (∀ p ∈ placements, ∃ r, resolve p = some r ∧ ∀ placed, r = some placed → placed.Inside p) ∧
    ∃ resolved cmds e', resolveAll placements = some resolved ∧
      emit e placements replaceAll = some (cmds, e') ∧
      ((log ++ cmds).countP isTransmit < 2 ^ 31 →
        e'.live.map (fun l => hostAfter (log ++ cmds) l.hostId) =
            (keepWithin 0 resolved).map (fun w => some (shownOf w)) ∧
          (∀ id, (hostAfter (log ++ cmds) id).isSome = true ↔ id ∈ e'.live.map Live.hostId) ∧
          (e'.live.map Live.hostId).Nodup ∧
          ∀ id, (log ++ cmds).countP (deletes id) =
            if (∃ cmd ∈ log ++ cmds, cmd.transmits id = true) ∧ id ∉ e'.live.map Live.hostId then 1
            else 0) := by
  refine ⟨fun p hp => runs_resolve (hok p hp), ?_⟩
  obtain ⟨resolved, hresolved, hmem⟩ := runs_resolveAll hok
  refine ⟨resolved, _, _, hresolved, emit_eq hresolved, fun hfew => ?_⟩
  generalize hcmds : (sync replaceAll (keepWithin 0 resolved) e.live e.nextId).1 = cmds at hfew ⊢
  generalize he' : KittyEmitter.mk _ _ = e'
  have hemits : emit e placements replaceAll = some (cmds, e') := by
    rw [emit_eq hresolved, hcmds, he']
  have hbefore := hrun.mirrors (by rw [countP_append] at hfew; omega)
  obtain ⟨hmirrors, hshown⟩ :=
    hbefore.emit hresolved (fun w hw => (hmem w hw).1) hstored hemits hfew
  have hheld : ∀ l ∈ e'.live, hostAfter (log ++ cmds) l.hostId = some l.shown := fun l hl =>
    (hmirrors.holds _ _).2 ⟨l, hl, rfl, rfl⟩
  refine ⟨?_, fun id => ?_, hmirrors.nodup, fun id => ?_⟩
  · rw [map_congr_left hheld]
    have hsome := congrArg (List.map some) hshown
    rw [map_map, map_map] at hsome
    exact hsome
  · rw [Option.isSome_iff_exists, mem_map]
    constructor
    · rintro ⟨held, hid⟩
      obtain ⟨l, hl, hlid, -⟩ := (hmirrors.holds _ _).1 hid
      exact ⟨l, hl, hlid⟩
    · rintro ⟨l, hl, rfl⟩
      exact ⟨_, hheld l hl⟩
  · have hgiven := hmirrors.given id
    have hretired := hmirrors.retired id
    have htransmitted : (∃ cmd ∈ log ++ cmds, cmd.transmits id = true) ↔
        0 < (log ++ cmds).countP (transmits id) := countP_pos_iff.symm
    have hlive : id ∈ e'.live.map Live.hostId ↔
        0 < e'.live.countP (fun l => decide (l.hostId = id)) := by
      rw [countP_pos_iff, mem_map]
      simp only [decide_eq_true_eq]
    split_ifs with hout <;> rw [htransmitted, hlive] at hout <;> split_ifs at hgiven <;> omega

namespace Sample

/-- The pictures have two by two pixels. -/
def pixels (address : Nat) : StoredImage := ⟨[.ofNat address], .rgb24, false, 2, 2⟩

/-- A picture in the first column of a pane. -/
def picture (address : Nat) (row : Int) : ComposedPlacement where
  image := ⟨address, pixels address⟩
  row := row
  col := 0
  clip := ⟨0, 0, 80, 24⟩
  geometry := ⟨⟨0, 0, 2, 2⟩, none⟩

def placedAt (row : Nat) : Placed := ⟨row, 0, ⟨0, 0, 2, 2⟩, (1, 1)⟩

theorem picture_ok (address : Nat) {row : Int} (hrow : 0 ≤ row ∧ row < 24) :
    (picture address row).Ok where
  image := by simp [picture, pixels]
  crop := by simp [picture, pixels]
  visible := by simp [picture]
  display _ _ h := by cases h
  clip := by simp [picture]
  row := by
    show -2 ^ 62 ≤ row ∧ row < 2 ^ 62
    omega
  col := by simp [picture]

/-- The second frame moves one picture of the first and replaces the other. -/
def first : List ComposedPlacement := [picture 0 0, picture 1 5]

def second : List ComposedPlacement := [picture 0 2, picture 2 5]

def sent : List HostCommand :=
  [.transmit 2000000000 (pixels 0) (placedAt 0), .transmit 2000000001 (pixels 1) (placedAt 5)]

def shown : KittyEmitter :=
  ⟨[⟨⟨0, pixels 0⟩, 2000000000, placedAt 0⟩, ⟨⟨1, pixels 1⟩, 2000000001, placedAt 5⟩], 2⟩

theorem emitted_first : Emitted shown sent := by
  have hok : ∀ p ∈ first, p.Ok := by
    unfold first
    rw [forall_mem_cons, forall_mem_singleton]
    exact ⟨picture_ok 0 (by decide), picture_ok 1 (by decide)⟩
  exact .frame .start hok (fun l hl => by cases hl) (rfl : emit .default first false = _)

theorem reemission_in_step_second : ∃ cmds e', emit shown second false = some (cmds, e') ∧
    hostAfter (sent ++ cmds) 2000000000 = some (pixels 0, placedAt 2) ∧
    hostAfter (sent ++ cmds) 2000000001 = none ∧
    hostAfter (sent ++ cmds) 2000000002 = some (pixels 2, placedAt 5) := by
  have hok : ∀ p ∈ second, p.Ok := by
    unfold second
    rw [forall_mem_cons, forall_mem_singleton]
    exact ⟨picture_ok 0 (by decide), picture_ok 2 (by decide)⟩
  have hstored : ∀ l ∈ shown.live, ∀ p ∈ second, l.image.address = p.image.address →
      l.image = p.image := by
    decide
  obtain ⟨-, resolved, cmds, e', hresolved, hemits, hin⟩ :=
    reemission_in_step emitted_first hok hstored false
  refine ⟨cmds, e', hemits, ?_⟩
  cases (rfl : resolveAll second =
    some [(picture 0 2, placedAt 2), (picture 2 5, placedAt 5)]).symm.trans hresolved
  cases (rfl : emit shown second false = some ([.put 2000000000 (placedAt 2),
    .transmit 2000000002 (pixels 2) (placedAt 5), .delete 2000000001],
      ⟨[⟨⟨0, pixels 0⟩, 2000000000, placedAt 2⟩, ⟨⟨2, pixels 2⟩, 2000000002, placedAt 5⟩],
        3⟩)).symm.trans hemits
  obtain ⟨hheld, honly, -⟩ := hin (by decide)
  obtain ⟨hmoved, hnew⟩ := List.cons.inj hheld
  refine ⟨hmoved, ?_, (List.cons.inj hnew).1⟩
  rw [← Option.isNone_iff_eq_none, ← Option.isSome_eq_false_iff, ← Bool.not_eq_true, honly]
  decide

end Sample

end Shux.Ui.KittyEmit
