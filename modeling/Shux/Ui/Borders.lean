/-
# Borders

The lines that frame the panes: the outline of the content area, and around every pane a frame one
cell away from it, which lies on the separators that the layout reserves. Each cell records in
which directions a line leaves it, and its glyph is read off that.

When every split of the layout has room for its separator, the lines are the outline and the
separators and nothing else. A split without room has its separator outside of its own area, and
the frame of its second half may run through a pane.
-/

import Shux.Core.Frames

namespace Shux.Ui

open List LayoutNode

inductive BorderStyle where
  | thin
  | thick
  | double
  | rounded
  | ascii
  | none
  deriving DecidableEq

/-- Glyph set for a border style. -/
structure BorderChars where
  horizontal : Char
  vertical : Char
  topLeft : Char
  topRight : Char
  bottomLeft : Char
  bottomRight : Char
  teeLeft : Char
  teeRight : Char
  teeTop : Char
  teeBottom : Char
  cross : Char

def BorderChars.thin : BorderChars := ⟨'─', '│', '┌', '┐', '└', '┘', '├', '┤', '┬', '┴', '┼'⟩
def BorderChars.thick : BorderChars := ⟨'━', '┃', '┏', '┓', '┗', '┛', '┣', '┫', '┳', '┻', '╋'⟩
def BorderChars.double : BorderChars := ⟨'═', '║', '╔', '╗', '╚', '╝', '╠', '╣', '╦', '╩', '╬'⟩
def BorderChars.rounded : BorderChars := ⟨'─', '│', '╭', '╮', '╰', '╯', '├', '┤', '┬', '┴', '┼'⟩
def BorderChars.ascii : BorderChars := ⟨'-', '|', '+', '+', '+', '+', '+', '+', '+', '+', '+'⟩

def BorderStyle.chars : BorderStyle → Option BorderChars
  | .thin => some .thin
  | .thick => some .thick
  | .double => some .double
  | .rounded => some .rounded
  | .ascii => some .ascii
  | .none => Option.none

/-- Whether an outline is drawn around a content area. -/
def bordersVisible (content : Rect) (style : BorderStyle) (zoomed : Bool) : Bool :=
  !zoomed && decide (style ≠ .none) && decide (3 ≤ content.width) && decide (3 ≤ content.height)

/-- The area panes are laid out in, inset by the outline when there is one. -/
def paneViewport (content : Rect) (style : BorderStyle) (zoomed : Bool) : Rect :=
  if bordersVisible content style zoomed then
    ⟨u16Add content.x 1, u16Add content.y 1, content.width - 2, content.height - 2⟩
  else content

/-- Which directions a line leaves a cell in. -/
structure Mark where
  up : Bool
  down : Bool
  left : Bool
  right : Bool
  focused : Bool
  deriving DecidableEq

namespace Mark

def default : Mark := ⟨false, false, false, false, false⟩

def or (m m' : Mark) : Mark :=
  ⟨m.up || m'.up, m.down || m'.down, m.left || m'.left, m.right || m'.right,
    m.focused || m'.focused⟩

/-- The glyph of a cell, if there is any line in it. -/
def glyph (chars : BorderChars) (m : Mark) : Option Char :=
  match m.up, m.down, m.left, m.right with
  | false, false, false, false => none
  | true, true, true, true => some chars.cross
  | true, true, false, true => some chars.teeLeft
  | true, true, true, false => some chars.teeRight
  | false, true, true, true => some chars.teeTop
  | true, false, true, true => some chars.teeBottom
  | false, true, false, true => some chars.topLeft
  | false, true, true, false => some chars.topRight
  | true, false, false, true => some chars.bottomLeft
  | true, false, true, false => some chars.bottomRight
  | _, _, false, false => some chars.vertical
  | _, _, _, _ => some chars.horizontal

end Mark

/-- An axis-aligned line from its first cell to its last. -/
structure Line where
  x0 : Int
  y0 : Int
  x1 : Int
  y1 : Int
  focused : Bool

namespace Line

/-- The part of a line inside a viewport. -/
def clip (l : Line) (viewport : Rect) : Line :=
  ⟨max l.x0 viewport.x, max l.y0 viewport.y, min l.x1 (viewport.x + viewport.width - 1),
    min l.y1 (viewport.y + viewport.height - 1), l.focused⟩

/-- What a line adds to a cell. Only its interior cells point both ways along it. -/
def mark (l : Line) (x y : Int) : Mark :=
  if l.x0 ≤ x ∧ x ≤ l.x1 ∧ l.y0 ≤ y ∧ y ≤ l.y1 then
    ⟨decide (l.y0 < y), decide (y < l.y1), decide (l.x0 < x), decide (x < l.x1), l.focused⟩
  else .default

end Line

/-- Draw a line, clipped to the viewport. -/
def drawLine (viewport : Rect) (grid : Int → Int → Mark) (l : Line) (x y : Int) : Mark :=
  (grid x y).or ((l.clip viewport).mark x y)

/-- The four lines that frame an area from one cell outside of it, or from its own edge. -/
def frameOf (left top right bottom : Int) (focused : Bool) : List Line :=
  [⟨left, top, left, bottom, focused⟩, ⟨right, top, right, bottom, focused⟩,
    ⟨left, top, right, top, focused⟩, ⟨left, bottom, right, bottom, focused⟩]

/-- The frame of a pane: its edges run one cell past it on both ends. -/
def paneFrame (focused : PaneId) (entry : PaneId × Rect) : List Line :=
  frameOf (entry.2.x - 1) (entry.2.y - 1) (entry.2.x + entry.2.width)
    (entry.2.y + entry.2.height) (decide (entry.1 = focused))

def outline (viewport : Rect) : List Line :=
  frameOf viewport.x viewport.y (viewport.x + viewport.width - 1)
    (viewport.y + viewport.height - 1) false

/-- The marks of all lines. -/
def borderMarks (paneRects : List (PaneId × Rect)) (focused : PaneId) (viewport : Rect) :
    Int → Int → Mark :=
  (outline viewport ++ paneRects.flatMap (paneFrame focused)).foldl (drawLine viewport)
    fun _ _ => .default

/-- One border glyph at an absolute screen position. -/
structure BorderSegment where
  x : Nat
  y : Nat
  ch : Char
  focused : Bool
  deriving DecidableEq

/-- Border glyphs for the rectangles of panes that were laid out in a viewport. -/
def computeBorders (paneRects : List (PaneId × Rect)) (focused : PaneId) (viewport : Rect)
    (style : BorderStyle) : List BorderSegment :=
  match style.chars with
  | none => []
  | some chars =>
    if viewport.width < 2 ∨ viewport.height < 2 then []
    else
      let grid := borderMarks paneRects focused viewport
      (List.range viewport.height).flatMap fun (ry : Nat) =>
        (List.range viewport.width).filterMap fun (rx : Nat) =>
          let m := grid ((rx : Int) + viewport.x) ((ry : Int) + viewport.y)
          (m.glyph chars).map fun ch =>
            ⟨(rx + viewport.x) % 65536, (ry + viewport.y) % 65536, ch, m.focused⟩

namespace Mark

/-- Some line leaves the cell. -/
def drawn (m : Mark) : Bool := m.up || m.down || m.left || m.right

/-- The number of directions a line leaves the cell in. -/
def arms (m : Mark) : Nat := m.up.toNat + m.down.toNat + m.left.toNat + m.right.toNat

theorem glyph_eq_none (chars : BorderChars) (m : Mark) :
    m.glyph chars = none ↔ m.drawn = false := by
  obtain ⟨up, down, left, right, focused⟩ := m
  cases up <;> cases down <;> cases left <;> cases right <;> simp [glyph, drawn]

theorem glyph_isSome (chars : BorderChars) (m : Mark) : (m.glyph chars).isSome = m.drawn := by
  have hnone := glyph_eq_none chars m
  cases hdrawn : m.drawn with
  | false => simp [hnone.2 hdrawn]
  | true =>
    cases hglyph : m.glyph chars with
    | none => simp [hnone.1 hglyph] at hdrawn
    | some ch => rfl

theorem two_le_arms_of_straight (m : Mark)
    (h : (m.up = true ∧ m.down = true) ∨ (m.left = true ∧ m.right = true)) : 2 ≤ m.arms := by
  rcases h with h | h <;> simp only [arms, h.1, h.2, Bool.toNat_true] <;> omega

theorem two_le_arms_of_corner (m : Mark) (hvertical : m.up = true ∨ m.down = true)
    (hhorizontal : m.left = true ∨ m.right = true) : 2 ≤ m.arms := by
  rcases hvertical with h | h <;> rcases hhorizontal with h' | h' <;>
    simp only [arms, h, h', Bool.toNat_true] <;> omega

/-- A reading of marks that any one of several lines can set. -/
structure Arm (f : Mark → Bool) : Prop where
  default : f .default = false
  or : ∀ m m', f (m.or m') = (f m || f m')

theorem arm_up : Arm up := ⟨rfl, fun _ _ => rfl⟩
theorem arm_down : Arm down := ⟨rfl, fun _ _ => rfl⟩
theorem arm_left : Arm left := ⟨rfl, fun _ _ => rfl⟩
theorem arm_right : Arm right := ⟨rfl, fun _ _ => rfl⟩

theorem arm_drawn : Arm drawn := by
  refine ⟨rfl, fun m m' => ?_⟩
  simp only [drawn, or]
  ac_rfl

/-- A reading is set in a cell when one of the lines sets it. -/
theorem Arm.foldl {f : Mark → Bool} (hf : Arm f) (viewport : Rect) (lines : List Line)
    (grid : Int → Int → Mark) (x y : Int) :
    f (lines.foldl (drawLine viewport) grid x y) =
      (f (grid x y) || lines.any fun l => f ((l.clip viewport).mark x y)) := by
  induction lines generalizing grid with
  | nil => simp
  | cons l lines ih => rw [foldl_cons, ih, drawLine, hf.or, any_cons, Bool.or_assoc]

end Mark

namespace Line

/-- The cells of a line. -/
def Meets (l : Line) (x y : Int) : Prop := l.x0 ≤ x ∧ x ≤ l.x1 ∧ l.y0 ≤ y ∧ y ≤ l.y1

variable (l : Line) (x y : Int)

theorem up_mark : (l.mark x y).up = true ↔ l.Meets x y ∧ l.y0 < y := by
  rw [mark, Meets]
  split_ifs with h <;> simp [h, Mark.default]

theorem down_mark : (l.mark x y).down = true ↔ l.Meets x y ∧ y < l.y1 := by
  rw [mark, Meets]
  split_ifs with h <;> simp [h, Mark.default]

theorem left_mark : (l.mark x y).left = true ↔ l.Meets x y ∧ l.x0 < x := by
  rw [mark, Meets]
  split_ifs with h <;> simp [h, Mark.default]

theorem right_mark : (l.mark x y).right = true ↔ l.Meets x y ∧ x < l.x1 := by
  rw [mark, Meets]
  split_ifs with h <;> simp [h, Mark.default]

theorem drawn_mark : (l.mark x y).drawn = true ↔ l.Meets x y ∧ (l.x0 < l.x1 ∨ l.y0 < l.y1) := by
  simp only [Mark.drawn, Bool.or_eq_true, up_mark, down_mark, left_mark, right_mark, Meets]
  omega

/-- A line that leaves a cell to the right enters the next one from the left. -/
theorem right_mark_eq : (l.mark x y).right = (l.mark (x + 1) y).left := by
  rw [Bool.eq_iff_iff, right_mark, left_mark, Meets, Meets]
  omega

/-- A line that leaves a cell downwards enters the next one from above. -/
theorem down_mark_eq : (l.mark x y).down = (l.mark x (y + 1)).up := by
  rw [Bool.eq_iff_iff, down_mark, up_mark, Meets, Meets]
  omega

end Line

section Marks

variable (paneRects : List (PaneId × Rect)) (focused : PaneId) (viewport : Rect)

theorem arm_borderMarks {f : Mark → Bool} (hf : Mark.Arm f) (x y : Int) :
    f (borderMarks paneRects focused viewport x y) =
      (outline viewport ++ paneRects.flatMap (paneFrame focused)).any
        fun l => f ((l.clip viewport).mark x y) := by
  rw [borderMarks, hf.foldl, hf.default, Bool.false_or]

theorem right_borderMarks (x y : Int) : (borderMarks paneRects focused viewport x y).right =
      (borderMarks paneRects focused viewport (x + 1) y).left := by
  rw [arm_borderMarks _ _ _ Mark.arm_right, arm_borderMarks _ _ _ Mark.arm_left]
  simp only [Line.right_mark_eq]

theorem down_borderMarks (x y : Int) : (borderMarks paneRects focused viewport x y).down =
      (borderMarks paneRects focused viewport x (y + 1)).up := by
  rw [arm_borderMarks _ _ _ Mark.arm_down, arm_borderMarks _ _ _ Mark.arm_up]
  simp only [Line.down_mark_eq]

/-- Nothing is drawn beyond the viewport. -/
theorem within_of_drawn {x y : Int}
    (h : (borderMarks paneRects focused viewport x y).drawn = true) :
    viewport.x ≤ x ∧ x < viewport.x + viewport.width ∧ viewport.y ≤ y ∧
      y < viewport.y + viewport.height := by
  rw [arm_borderMarks _ _ _ Mark.arm_drawn, any_eq_true] at h
  obtain ⟨l, -, hl⟩ := h
  rw [Line.drawn_mark, Line.Meets] at hl
  simp only [Line.clip] at hl
  omega

end Marks

/-- The four lines around a rectangle. -/
def frameAround (r : Rect) (focused : Bool) : List Line :=
  frameOf (r.x - 1) (r.y - 1) (r.x + r.width) (r.y + r.height) focused

/-- There is room in a viewport for the frame around a rectangle. -/
structure FramedIn (viewport r : Rect) : Prop where
  left : viewport.x < r.x
  right : r.x + r.width < viewport.x + viewport.width
  top : viewport.y < r.y
  bottom : r.y + r.height < viewport.y + viewport.height

section Frame

variable {viewport r : Rect} (hr : FramedIn viewport r) (focused : Bool)
include hr

/-- A frame that there is room for is drawn whole. -/
theorem clip_frameAround : ∀ l ∈ frameAround r focused, l.clip viewport = l := by
  obtain ⟨hleft, hright, htop, hbottom⟩ := hr
  intro l hl
  simp only [frameAround, frameOf, mem_cons, not_mem_nil, or_false] at hl
  rcases hl with rfl | rfl | rfl | rfl <;> simp only [Line.clip, Line.mk.injEq, and_true] <;> omega

/-- The lines around a rectangle mark its frame. -/
theorem any_drawn_frameAround (cell : Nat × Nat) :
    ((frameAround r focused).any fun l => ((l.clip viewport).mark cell.1 cell.2).drawn) = true ↔
      r.OnFrame cell := by
  rw [any_eq_true]
  have hclip := clip_frameAround hr focused
  have hset : (∃ l ∈ frameAround r focused, ((l.clip viewport).mark cell.1 cell.2).drawn = true) ↔
      ∃ l ∈ frameAround r focused, (l.mark cell.1 cell.2).drawn = true := by
    refine exists_congr fun l => and_congr_right fun hl => ?_
    rw [hclip l hl]
  rw [hset]
  obtain ⟨hleft, -, htop, -⟩ := hr
  simp only [frameAround, frameOf, mem_cons, not_mem_nil, or_false, exists_eq_or_imp,
    exists_eq_left, Line.drawn_mark, Line.Meets, Rect.OnFrame]
  omega

section Drawn

variable {paneRects : List (PaneId × Rect)} {focusedPane : PaneId}
  (hlines : ∀ l ∈ frameAround r focused,
    l ∈ outline viewport ++ paneRects.flatMap (paneFrame focusedPane))
include hlines

variable {cell : Nat × Nat}

/-- What one line sets in a cell is set there. -/
theorem arm_of_frame {f : Mark → Bool} (hf : Mark.Arm f) {l : Line} (hl : l ∈ frameAround r focused)
    {x y : Int} (h : f (l.mark x y) = true) :
    f (borderMarks paneRects focusedPane viewport x y) = true := by
  rw [arm_borderMarks _ _ _ hf, any_eq_true]
  refine ⟨l, hlines l hl, ?_⟩
  rw [clip_frameAround hr focused l hl]
  exact h

/-- Along its sides a frame runs up and down. -/
theorem up_down_of_frame (hcell : r.OnFrame cell)
    (hside : cell.1 + 1 = r.x ∨ cell.1 = r.x + r.width) :
    (r.y ≤ cell.2 → (borderMarks paneRects focusedPane viewport cell.1 cell.2).up = true) ∧
      (cell.2 < r.y + r.height →
        (borderMarks paneRects focusedPane viewport cell.1 cell.2).down = true) := by
  obtain ⟨hin, -⟩ := hcell
  have hleft := hr.left
  have htop := hr.top
  have hmeets : ∃ l ∈ frameAround r focused, l.y0 = r.y - 1 ∧ l.y1 = r.y + r.height ∧
      l.Meets cell.1 cell.2 := by
    rcases hside with hside | hside
    · refine ⟨_, mem_cons_self, rfl, rfl, ?_⟩
      simp only [Line.Meets]
      omega
    · refine ⟨_, mem_cons_of_mem _ mem_cons_self, rfl, rfl, ?_⟩
      simp only [Line.Meets]
      omega
  obtain ⟨l, hl, hy0, hy1, hmeets⟩ := hmeets
  have hfirst : r.y ≤ cell.2 → (l.mark cell.1 cell.2).up = true := by
    intro h
    rw [Line.up_mark, hy0]
    exact ⟨hmeets, by omega⟩
  have hsecond : cell.2 < r.y + r.height → (l.mark cell.1 cell.2).down = true := by
    intro h
    rw [Line.down_mark, hy1]
    exact ⟨hmeets, by omega⟩
  have harm := @arm_of_frame viewport r hr focused paneRects focusedPane hlines
  exact ⟨fun h => harm Mark.arm_up hl (hfirst h), fun h => harm Mark.arm_down hl (hsecond h)⟩

/-- Along its top and bottom a frame runs left and right. -/
theorem left_right_of_frame (hcell : r.OnFrame cell)
    (hside : cell.2 + 1 = r.y ∨ cell.2 = r.y + r.height) :
    (r.x ≤ cell.1 → (borderMarks paneRects focusedPane viewport cell.1 cell.2).left = true) ∧
      (cell.1 < r.x + r.width →
        (borderMarks paneRects focusedPane viewport cell.1 cell.2).right = true) := by
  obtain ⟨hin, -⟩ := hcell
  have hleft := hr.left
  have htop := hr.top
  have hmeets : ∃ l ∈ frameAround r focused, l.x0 = r.x - 1 ∧ l.x1 = r.x + r.width ∧
      l.Meets cell.1 cell.2 := by
    rcases hside with hside | hside
    · refine ⟨_, mem_cons_of_mem _ (mem_cons_of_mem _ mem_cons_self), rfl, rfl, ?_⟩
      simp only [Line.Meets]
      omega
    · refine ⟨_, mem_cons_of_mem _ (mem_cons_of_mem _ (mem_cons_of_mem _
        mem_cons_self)), rfl, rfl, ?_⟩
      simp only [Line.Meets]
      omega
  obtain ⟨l, hl, hx0, hx1, hmeets⟩ := hmeets
  have hfirst : r.x ≤ cell.1 → (l.mark cell.1 cell.2).left = true := by
    intro h
    rw [Line.left_mark, hx0]
    exact ⟨hmeets, by omega⟩
  have hsecond : cell.1 < r.x + r.width → (l.mark cell.1 cell.2).right = true := by
    intro h
    rw [Line.right_mark, hx1]
    exact ⟨hmeets, by omega⟩
  have harm := @arm_of_frame viewport r hr focused paneRects focusedPane hlines
  exact ⟨fun h => harm Mark.arm_left hl (hfirst h), fun h => harm Mark.arm_right hl (hsecond h)⟩

/-- A cell on a frame is left by a line in two directions. -/
theorem two_le_arms (hcell : r.OnFrame cell) :
    2 ≤ (borderMarks paneRects focusedPane viewport cell.1 cell.2).arms := by
  have hvertical := up_down_of_frame hr focused hlines hcell
  have hhorizontal := left_right_of_frame hr focused hlines hcell
  obtain ⟨hin, hedge⟩ := hcell
  generalize borderMarks paneRects focusedPane viewport cell.1 cell.2 = m at hvertical hhorizontal ⊢
  by_cases hcorner : (cell.1 + 1 = r.x ∨ cell.1 = r.x + r.width) ∧
      (cell.2 + 1 = r.y ∨ cell.2 = r.y + r.height)
  · refine m.two_le_arms_of_corner ?_ ?_
    · rcases hcorner.2 with hy | hy
      · exact Or.inr ((hvertical hcorner.1).2 (by omega))
      · exact Or.inl ((hvertical hcorner.1).1 (by omega))
    · rcases hcorner.1 with hx | hx
      · exact Or.inr ((hhorizontal hcorner.2).2 (by omega))
      · exact Or.inl ((hhorizontal hcorner.2).1 (by omega))
  · by_cases hside : cell.1 + 1 = r.x ∨ cell.1 = r.x + r.width
    · have hboth := hvertical hside
      exact m.two_le_arms_of_straight (Or.inl ⟨hboth.1 (by omega), hboth.2 (by omega)⟩)
    · have hboth := hhorizontal (by omega)
      exact m.two_le_arms_of_straight (Or.inr ⟨hboth.1 (by omega), hboth.2 (by omega)⟩)

end Drawn

end Frame

section Layout

variable {R : Type} [F32 R] {t : LayoutNode R} {content : Rect} {style : BorderStyle}
  {zoomed : Bool}

section

variable (hvisible : bordersVisible content style zoomed = true)
include hvisible

theorem paneViewport_of_visible (hfits : content.Fits) :
    paneViewport content style zoomed =
      ⟨content.x + 1, content.y + 1, content.width - 2, content.height - 2⟩ ∧
    3 ≤ content.width ∧ 3 ≤ content.height := by
  have hsize : 3 ≤ content.width ∧ 3 ≤ content.height := by
    rw [bordersVisible] at hvisible
    simp only [Bool.and_eq_true, decide_eq_true_eq] at hvisible
    exact ⟨hvisible.1.2, hvisible.2⟩
  obtain ⟨hwidth, hheight⟩ := hfits
  refine ⟨?_, hsize⟩
  rw [paneViewport, if_pos hvisible, u16Add, u16Add, Nat.mod_eq_of_lt (by omega),
    Nat.mod_eq_of_lt (by omega)]

theorem inner_paneViewport (hfits : content.Fits) : (paneViewport content style zoomed).Inner := by
  obtain ⟨heq, hwide, htall⟩ := paneViewport_of_visible hvisible hfits
  obtain ⟨hwidth, hheight⟩ := hfits
  rw [heq]
  refine ⟨?_, ?_⟩
  · show content.x + 1 + (content.width - 2) < 65536
    omega
  · show content.y + 1 + (content.height - 2) < 65536
    omega

/-- Whatever is inside of the area of the panes has room for its frame. -/
theorem framedIn_of_inside
    (hfits : content.Fits) {r : Rect} (hr : r.Inside (paneViewport content style zoomed)) :
    FramedIn content r := by
  obtain ⟨heq, hwide, htall⟩ := paneViewport_of_visible hvisible hfits
  obtain ⟨hleft, hright, htop, hbottom⟩ := hr
  rw [heq] at hleft hright htop hbottom
  refine ⟨?_, ?_, ?_, ?_⟩ <;> simp only at hleft hright htop hbottom <;> omega

/-- The outline is the frame around the area of the panes. -/
theorem outline_eq (hfits : content.Fits) :
    outline content = frameAround (paneViewport content style zoomed) false := by
  obtain ⟨heq, hwide, htall⟩ := paneViewport_of_visible hvisible hfits
  have hleft : ((content.x + 1 : Nat) : Int) - 1 = content.x := by omega
  have htop : ((content.y + 1 : Nat) : Int) - 1 = content.y := by omega
  have hright : ((content.x + 1 : Nat) : Int) + ((content.width - 2 : Nat) : Int) =
      content.x + content.width - 1 := by omega
  have hbottom : ((content.y + 1 : Nat) : Int) + ((content.height - 2 : Nat) : Int) =
      content.y + content.height - 1 := by omega
  rw [heq, outline, frameAround, hleft, htop, hright, hbottom]

end

/-- A cell is drawn when it is on the frame of the panes' area or on a separator. -/
theorem drawn_borderMarks (hshares : t.SharesBounded) (hfits : content.Fits)
    (hvisible : bordersVisible content style zoomed = true)
    (hroomy : t.Roomy (paneViewport content style zoomed)) (focused : PaneId) (cell : Nat × Nat) :
    (borderMarks (t.computeRects (paneViewport content style zoomed)) focused content cell.1
        cell.2).drawn = true ↔
      (paneViewport content style zoomed).OnFrame cell ∨
        ∃ s ∈ t.separators (paneViewport content style zoomed), s.covers cell = true := by
  have hinner := inner_paneViewport hvisible hfits
  have hpanes := onFrame_rects hshares hinner hroomy cell
  have hframed : ∀ r, r.Inside (paneViewport content style zoomed) → FramedIn content r :=
    fun r => framedIn_of_inside hvisible hfits
  have houtline := any_drawn_frameAround (hframed _ (.refl _)) false cell
  rw [arm_borderMarks _ _ _ Mark.arm_drawn, any_append, Bool.or_eq_true,
    outline_eq hvisible hfits, houtline, any_flatMap, any_eq_true]
  have hframes : (∃ pane ∈ t.computeRects (paneViewport content style zoomed),
      ((paneFrame focused pane).any fun l => ((l.clip content).mark cell.1 cell.2).drawn) = true) ↔
      ∃ r ∈ t.rects (paneViewport content style zoomed), r.OnFrame cell := by
    simp only [rects, mem_map, exists_exists_and_eq_and]
    refine exists_congr fun pane => and_congr_right fun hpane => ?_
    have hinside := inside_rects hshares hinner hroomy _ (mem_map_of_mem hpane)
    exact any_drawn_frameAround (hframed _ hinside) _ cell
  rw [hframes, hpanes]
  tauto

theorem two_le_arms_of_drawn (hshares : t.SharesBounded) (hfits : content.Fits)
    (hvisible : bordersVisible content style zoomed = true)
    (hroomy : t.Roomy (paneViewport content style zoomed)) (focused : PaneId) {cell : Nat × Nat}
    (hdrawn : (borderMarks (t.computeRects (paneViewport content style zoomed)) focused content
      cell.1 cell.2).drawn = true) :
    2 ≤ (borderMarks (t.computeRects (paneViewport content style zoomed)) focused content
      cell.1 cell.2).arms := by
  have hinner := inner_paneViewport hvisible hfits
  rw [drawn_borderMarks hshares hfits hvisible hroomy,
    ← onFrame_rects hshares hinner hroomy] at hdrawn
  obtain ⟨r, hr, hcell⟩ := hdrawn
  have hinside := inside_rects hshares hinner hroomy r hr
  rw [rects, mem_map] at hr
  obtain ⟨pane, hpane, rfl⟩ := hr
  refine two_le_arms (framedIn_of_inside hvisible hfits hinside)
    (decide (pane.1 = focused)) ?_ hcell
  intro l hl
  exact mem_append_right _ (mem_flatMap.2 ⟨pane, hpane, hl⟩)

end Layout

/-- The glyphs are those of the cells of the viewport that a line leaves. -/
theorem mem_computeBorders {paneRects : List (PaneId × Rect)} {focused : PaneId} {viewport : Rect}
    {style : BorderStyle} (hvisible : bordersVisible viewport style false = true)
    (hfits : viewport.Fits) (s : BorderSegment) :
    s ∈ computeBorders paneRects focused viewport style ↔
      viewport.covers (s.x, s.y) = true ∧
        (borderMarks paneRects focused viewport s.x s.y).focused = s.focused ∧
        ∃ chars, style.chars = some chars ∧
          (borderMarks paneRects focused viewport s.x s.y).glyph chars = some s.ch := by
  obtain ⟨hwidth, hheight⟩ := hfits
  rw [bordersVisible] at hvisible
  simp only [Bool.and_eq_true, decide_eq_true_eq] at hvisible
  have hchars : ∃ chars, style.chars = some chars := by
    cases style with
    | none => simp at hvisible
    | _ => exact ⟨_, rfl⟩
  obtain ⟨chars, hchars⟩ := hchars
  rw [computeBorders, hchars]
  simp only
  rw [if_neg (by omega)]
  simp only [mem_flatMap, mem_filterMap, mem_range, Option.map_eq_some_iff,
    Rect.covers_iff, Option.some.injEq, exists_eq_left']
  constructor
  · rintro ⟨ry, hry, rx, hrx, ch, hch, rfl⟩
    have hx : (rx + viewport.x) % 65536 = rx + viewport.x := Nat.mod_eq_of_lt (by omega)
    have hy : (ry + viewport.y) % 65536 = ry + viewport.y := Nat.mod_eq_of_lt (by omega)
    simp only [hx, hy]
    refine ⟨by omega, ?_, ?_⟩
    · push_cast
      rfl
    · push_cast
      exact hch
  · rintro ⟨hin, hfocused, hglyph⟩
    obtain ⟨x, y, ch, foc⟩ := s
    simp only at hin hfocused hglyph
    have hx : ((x - viewport.x : Nat) : Int) + viewport.x = x := by omega
    have hy : ((y - viewport.y : Nat) : Int) + viewport.y = y := by omega
    refine ⟨y - viewport.y, by omega, x - viewport.x, by omega, ch, ?_, ?_⟩
    · rw [hx, hy]
      exact hglyph
    · rw [hx, hy, BorderSegment.mk.injEq]
      refine ⟨?_, ?_, rfl, hfocused⟩ <;> omega

/-- There is a glyph wherever a line leaves a cell. -/
theorem exists_mem_computeBorders {paneRects : List (PaneId × Rect)} {focused : PaneId}
    {viewport : Rect} {style : BorderStyle}
    (hvisible : bordersVisible viewport style false = true) (hfits : viewport.Fits) {x y : Int}
    (hdrawn : (borderMarks paneRects focused viewport x y).drawn = true) :
    ∃ s ∈ computeBorders paneRects focused viewport style, (s.x : Int) = x ∧ (s.y : Int) = y := by
  have hin := within_of_drawn _ _ _ hdrawn
  have hchars : ∃ chars, style.chars = some chars := by
    cases style with
    | none => simp [bordersVisible] at hvisible
    | _ => exact ⟨_, rfl⟩
  obtain ⟨chars, hchars⟩ := hchars
  obtain ⟨nx, rfl⟩ := Int.eq_ofNat_of_zero_le (show 0 ≤ x by omega)
  obtain ⟨ny, rfl⟩ := Int.eq_ofNat_of_zero_le (show 0 ≤ y by omega)
  have hsome := Mark.glyph_isSome chars (borderMarks paneRects focused viewport nx ny)
  rw [hdrawn, Option.isSome_iff_exists] at hsome
  obtain ⟨ch, hch⟩ := hsome
  refine ⟨⟨nx, ny, ch, (borderMarks paneRects focused viewport nx ny).focused⟩, ?_, rfl, rfl⟩
  rw [mem_computeBorders hvisible hfits, Rect.covers_iff]
  refine ⟨?_, rfl, chars, hchars, hch⟩
  simp only
  omega

/-- A glyph has an arm in one direction when the cell there has a glyph with the opposite arm. -/
def Joined (marks : Int → Int → Mark) (segments : List BorderSegment) (arm opposite : Mark → Bool)
    (dx dy : Int) : Prop :=
  ∀ s ∈ segments, arm (marks s.x s.y) = true ↔
    ∃ s' ∈ segments, (s'.x : Int) = s.x + dx ∧ (s'.y : Int) = s.y + dy ∧
      opposite (marks s'.x s'.y) = true

theorem joined_of_eq {paneRects : List (PaneId × Rect)} {focused : PaneId}
    {viewport : Rect} {style : BorderStyle}
    (hvisible : bordersVisible viewport style false = true) (hfits : viewport.Fits)
    {arm opposite : Mark → Bool} {dx dy : Int}
    (hstep : ∀ x y, arm (borderMarks paneRects focused viewport x y) =
      opposite (borderMarks paneRects focused viewport (x + dx) (y + dy)))
    (hdrawn : ∀ m : Mark, opposite m = true → m.drawn = true) :
    Joined (borderMarks paneRects focused viewport)
      (computeBorders paneRects focused viewport style) arm opposite dx dy := by
  intro s hs
  constructor
  · intro harm
    rw [hstep] at harm
    obtain ⟨s', hs', hx, hy⟩ := exists_mem_computeBorders hvisible hfits (hdrawn _ harm)
    refine ⟨s', hs', hx, hy, ?_⟩
    rw [hx, hy]
    exact harm
  · rintro ⟨s', hs', hx, hy, harm⟩
    rw [hstep, ← hx, ← hy]
    exact harm

/-- When every split has cells along its axis, the glyphs stay inside the content and out of the
panes, cover every separator and join up. Each has at least two arms, so that it shows exactly
the lines that leave its cell. -/
theorem computeBorders_joined {R : Type} [F32 R] {t : LayoutNode R} (hshares : t.SharesBounded)
    {content : Rect} (hfits : content.Fits) {style : BorderStyle}
    (hvisible : bordersVisible content style false = true)
    (hroomy : t.Roomy (paneViewport content style false)) (focused : PaneId) :
    let viewport := paneViewport content style false
    let panes := t.computeRects viewport
    let marks := borderMarks panes focused content
    let segments := computeBorders panes focused content style
    (∀ s ∈ segments, content.covers (s.x, s.y) = true ∧
      ∀ pane ∈ panes, pane.2.covers (s.x, s.y) = false) ∧
    (∀ sep ∈ t.separators viewport, ∀ cell, sep.covers cell = true →
      ∃ s ∈ segments, (s.x, s.y) = cell) ∧
    (∀ s ∈ segments, 2 ≤ (marks s.x s.y).arms ∧
      ∃ chars, style.chars = some chars ∧ (marks s.x s.y).glyph chars = some s.ch) ∧
    Joined marks segments Mark.right Mark.left 1 0 ∧
    Joined marks segments Mark.left Mark.right (-1) 0 ∧
    Joined marks segments Mark.down Mark.up 0 1 ∧
    Joined marks segments Mark.up Mark.down 0 (-1) := by
  intro viewport panes marks segments
  have hinner := inner_paneViewport hvisible hfits
  have hmem := @mem_computeBorders panes focused content style hvisible hfits
  have hdrawn : ∀ s ∈ segments, (marks s.x s.y).drawn = true := by
    intro s hs
    obtain ⟨-, -, chars, -, hglyph⟩ := (hmem s).1 hs
    rw [← Mark.glyph_isSome chars, hglyph]
    rfl
  refine ⟨?_, ?_, ?_, ?_, ?_, ?_, ?_⟩
  · intro s hs
    refine ⟨((hmem s).1 hs).1, fun pane hpane => ?_⟩
    have hframe := (drawn_borderMarks hshares hfits hvisible hroomy focused (s.x, s.y)).1
      (hdrawn s hs)
    exact not_covers_of_onFrame hshares hinner hroomy hframe _ (mem_map_of_mem hpane)
  · intro sep hsep cell hcell
    have hcellDrawn := (drawn_borderMarks hshares hfits hvisible hroomy focused cell).2
      (Or.inr ⟨sep, hsep, hcell⟩)
    obtain ⟨s, hs, hx, hy⟩ := exists_mem_computeBorders hvisible hfits hcellDrawn
    exact ⟨s, hs, Prod.ext (Int.ofNat.inj hx) (Int.ofNat.inj hy)⟩
  · intro s hs
    refine ⟨?_, ((hmem s).1 hs).2.2⟩
    exact @two_le_arms_of_drawn R _ t content style false hshares hfits hvisible hroomy focused
      (s.x, s.y) (hdrawn s hs)
  · refine joined_of_eq hvisible hfits (fun x y => ?_) (fun m h => by simp [Mark.drawn, h])
    rw [right_borderMarks, add_zero]
  · refine joined_of_eq hvisible hfits (fun x y => ?_) (fun m h => by simp [Mark.drawn, h])
    rw [right_borderMarks, add_zero, neg_add_cancel_right]
  · refine joined_of_eq hvisible hfits (fun x y => ?_) (fun m h => by simp [Mark.drawn, h])
    rw [down_borderMarks, add_zero]
  · refine joined_of_eq hvisible hfits (fun x y => ?_) (fun m h => by simp [Mark.drawn, h])
    rw [down_borderMarks, add_zero, neg_add_cancel_right]

namespace Sample

/-- Two columns of which the first, narrower than a cell, is split again. -/
def slivers : LayoutNode ℚ :=
  .node .vertical (1 / 10) (.node .vertical (1 / 2) (.leaf ⟨⟨1⟩⟩) (.leaf ⟨⟨2⟩⟩)) (.leaf ⟨⟨3⟩⟩)

theorem computeBorders_joined_panes :
    let content : Rect := ⟨0, 0, 80, 24⟩
    Shux.Sample.panes.Roomy (paneViewport content .rounded false) ∧
      Joined (borderMarks (Shux.Sample.panes.computeRects (paneViewport content .rounded false))
        ⟨⟨1⟩⟩
          content)
        (computeBorders (Shux.Sample.panes.computeRects (paneViewport content .rounded false)) ⟨⟨1⟩⟩
          content .rounded) Mark.right Mark.left 1 0 := by
  have hroomy : Shux.Sample.panes.Roomy (paneViewport ⟨0, 0, 80, 24⟩ .rounded false) := by
    refine ⟨by decide, trivial, ?_, trivial, trivial⟩
    with_unfolding_all decide
  have hjoined := computeBorders_joined Shux.Sample.sharesBounded_panes
    (⟨by decide, by decide⟩ : Rect.Fits ⟨0, 0, 80, 24⟩) (by decide) hroomy ⟨⟨1⟩⟩
  exact ⟨hroomy, hjoined.2.2.2.1⟩

/-- The frame of the second sliver runs through the pane of the other column. -/
theorem computeBorders_in_pane :
    let content : Rect := ⟨0, 0, 7, 3⟩
    let panes := slivers.computeRects (paneViewport content .rounded false)
    slivers.SharesBounded ∧ bordersVisible content .rounded false = true ∧
      ∃ s ∈ computeBorders panes ⟨⟨1⟩⟩ content .rounded, ∃ pane ∈ panes,
        pane.2.covers (s.x, s.y) = true := by
  refine ⟨?_, by decide, ⟨2, 1, '│', false⟩, ?_, (⟨⟨3⟩⟩, ⟨2, 1, 4, 1⟩), ?_, by decide⟩
  · refine ⟨fun total _ => share_le_total (by norm_num) total, ⟨?_, trivial, trivial⟩, trivial⟩
    exact fun total _ => share_le_total (by norm_num) total
  · with_unfolding_all decide
  · with_unfolding_all decide

end Sample

end Shux.Ui
