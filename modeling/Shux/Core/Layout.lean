/-
# Layout trees

Each window shows a binary split tree whose leaves are panes. This module embeds
the tree and its operations, the zoom that hides all leaves but one, and the
geometry that directional focus reads.

Split ratios are 32-bit floats in the source. The tree operations only clamp, add
and subtract them, so the model keeps them abstract: a type with the operations
the source uses. Cell coordinates are `u16`, and sums of them wrap.
-/

import Mathlib.Tactic

namespace Shux

open List

/-- A UUID, of which only the identity matters. -/
structure Uuid where
  value : Nat
  deriving DecidableEq

structure PaneId where
  uuid : Uuid
  deriving DecidableEq

/-- The operations the layout engine performs on `f32`. -/
class F32 (R : Type) where
  lt : R → R → Bool
  add : R → R → R
  sub : R → R → R
  mul : R → R → R
  /-- A `u16` as a float. -/
  ofU16 : Nat → R
  /-- `x.round() as u16`, which saturates. -/
  roundToU16 : R → Nat
  minRatio : R
  maxRatio : R

/-- Rational ratios, as the documentation writes the two bounds. -/
instance : F32 ℚ where
  lt a b := decide (a < b)
  add a b := a + b
  sub a b := a - b
  mul a b := a * b
  ofU16 n := n
  roundToU16 x := min 65535 (x + 1 / 2).floor.toNat
  minRatio := 5 / 100
  maxRatio := 95 / 100

/-- Split direction: children stacked, or side by side. -/
inductive Direction where
  | horizontal
  | vertical
  deriving DecidableEq

/-- Cardinal directions for pane navigation. -/
inductive NavDirection where
  | up
  | down
  | left
  | right
  deriving DecidableEq

/-- A pane's position and size in terminal cells. -/
structure Rect where
  x : Nat
  y : Nat
  width : Nat
  height : Nat
  deriving DecidableEq

/-- Addition on `u16`. -/
def u16Add (a b : Nat) : Nat := (a + b) % 65536

/-- Separator width between split panes. -/
def separatorSize : Nat := 1

/-- A node in the binary layout tree. -/
inductive LayoutNode (R : Type) where
  | node (dir : Direction) (ratio : R) (a b : LayoutNode R)
  | leaf (pane : PaneId)

variable {R : Type}

section Ratios

variable [F32 R]

/-- `f32::clamp` between the two ratio bounds. -/
def clampRatio (ratio : R) : R :=
  let raised := if F32.lt ratio F32.minRatio then F32.minRatio else ratio
  if F32.lt F32.maxRatio raised then F32.maxRatio else raised

def splitRect (viewport : Rect) (dir : Direction) (ratio : R) : Rect × Rect :=
  match dir with
  | .vertical =>
    let total := viewport.width - separatorSize
    let aWidth := F32.roundToU16 (F32.mul (F32.ofU16 total) ratio)
    let bWidth := total - aWidth
    (⟨viewport.x, viewport.y, aWidth, viewport.height⟩,
      ⟨u16Add (u16Add viewport.x aWidth) separatorSize, viewport.y, bWidth, viewport.height⟩)
  | .horizontal =>
    let total := viewport.height - separatorSize
    let aHeight := F32.roundToU16 (F32.mul (F32.ofU16 total) ratio)
    let bHeight := total - aHeight
    (⟨viewport.x, viewport.y, viewport.width, aHeight⟩,
      ⟨viewport.x, u16Add (u16Add viewport.y aHeight) separatorSize, viewport.width, bHeight⟩)

end Ratios

namespace LayoutNode

/-- The pane of a leaf. -/
def paneId : LayoutNode R → Option PaneId
  | leaf pane => some pane
  | node _ _ _ _ => none

/-- The leaves, left to right. -/
def paneIds : LayoutNode R → List PaneId
  | leaf pane => [pane]
  | node _ _ a b => a.paneIds ++ b.paneIds

def paneCount : LayoutNode R → Nat
  | leaf _ => 1
  | node _ _ a b => a.paneCount + b.paneCount

def containsPane (target : PaneId) : LayoutNode R → Bool
  | leaf pane => pane = target
  | node _ _ a b => a.containsPane target || b.containsPane target

variable [F32 R]

/-- Build a split, its ratio clamped. -/
def split (dir : Direction) (ratio : R) (a b : LayoutNode R) : LayoutNode R :=
  node dir (clampRatio ratio) a b

/-- The position and size of each pane in the available viewport. -/
def computeRects (viewport : Rect) : LayoutNode R → List (PaneId × Rect)
  | leaf pane => [(pane, viewport)]
  | node dir ratio a b =>
    let rects := splitRect viewport dir ratio
    a.computeRects rects.1 ++ b.computeRects rects.2

/-- Replace the target leaf with a split of the original and the new pane. -/
def splitPane (targetPane newPane : PaneId) (dir : Direction) (ratio : R) :
    LayoutNode R → Option (LayoutNode R)
  | leaf pane =>
    if pane = targetPane then some (split dir ratio (leaf targetPane) (leaf newPane)) else none
  | node d r a b =>
    match a.splitPane targetPane newPane dir ratio with
    | some newA => some (split d r newA b)
    | none => (b.splitPane targetPane newPane dir ratio).map fun newB => split d r a newB

/-- Adjust the ratio of the pane's nearest ancestor split in the given direction. -/
def resizePane (targetPane : PaneId) (dir : Direction) (delta : R) :
    LayoutNode R → Option (LayoutNode R)
  | leaf _ => none
  | node splitDir ratio a b =>
    let inA := a.containsPane targetPane
    let inB := b.containsPane targetPane
    if !inA && !inB then none
    else if splitDir = dir then
      let newRatio :=
        if inA then clampRatio (F32.add ratio delta) else clampRatio (F32.sub ratio delta)
      some (split splitDir newRatio a b)
    else if inA then
      (a.resizePane targetPane dir delta).map fun newA => split splitDir ratio newA b
    else
      (b.resizePane targetPane dir delta).map fun newB => split splitDir ratio a newB

/-- Remove a pane. Its parent split collapses and the sibling takes its place. -/
def removePane (target : PaneId) : LayoutNode R → Option (LayoutNode R)
  | leaf _ => none
  | node dir ratio a b =>
    if a.paneId = some target then some b
    else if b.paneId = some target then some a
    else if a.containsPane target then
      (a.removePane target).map fun newA => split dir ratio newA b
    else if b.containsPane target then
      (b.removePane target).map fun newB => split dir ratio a newB
    else none

def swapInner (paneA paneB : PaneId) : LayoutNode R → LayoutNode R
  | leaf pane => if pane = paneA then leaf paneB else if pane = paneB then leaf paneA else leaf pane
  | node dir ratio a b => split dir ratio (a.swapInner paneA paneB) (b.swapInner paneA paneB)

/-- Swap two panes without changing the tree's structure. -/
def swapPanes (paneA paneB : PaneId) (tree : LayoutNode R) : Option (LayoutNode R) :=
  if !tree.containsPane paneA || !tree.containsPane paneB then none
  else some (tree.swapInner paneA paneB)

/-- The loop of `directionalFocus`: the nearest pane so far and its distance. -/
def focusStep (currentPane : PaneId) (cx cy : Int) (direction : NavDirection)
    (best : Option (PaneId × Int)) (entry : PaneId × Rect) : Option (PaneId × Int) :=
  if entry.1 = currentPane then best
  else
    let px : Int := entry.2.x + entry.2.width / 2
    let py : Int := entry.2.y + entry.2.height / 2
    let isValid : Bool :=
      match direction with
      | .left => px < cx
      | .right => cx < px
      | .up => py < cy
      | .down => cy < py
    if isValid then
      let primary : Int :=
        match direction with
        | .left | .right => |px - cx|
        | .up | .down => |py - cy|
      let secondary : Int :=
        match direction with
        | .left | .right => |py - cy|
        | .up | .down => |px - cx|
      let dist := primary * 1000 + secondary
      match best with
      | none => some (entry.1, dist)
      | some (id, least) => if dist < least then some (entry.1, dist) else some (id, least)
    else best

/-- The pane in the given direction from `currentPane`. -/
def directionalFocus (currentPane : PaneId) (direction : NavDirection) (viewport : Rect)
    (tree : LayoutNode R) : Option PaneId :=
  let rects := tree.computeRects viewport
  match rects.find? fun entry => entry.1 = currentPane with
  | none => none
  | some (_, current) =>
    let cx : Int := current.x + current.width / 2
    let cy : Int := current.y + current.height / 2
    (rects.foldl (focusStep currentPane cx cy direction) none).map Prod.fst

end LayoutNode

/-- State for a zoomed pane. -/
structure ZoomState (R : Type) where
  savedLayout : LayoutNode R
  zoomedPane : PaneId

/-- Layout state for a window: the tree it shows and the tree a zoom hides. -/
structure WindowLayout (R : Type) where
  tree : LayoutNode R
  zoom : Option (ZoomState R)

namespace WindowLayout

def new (pane : PaneId) : WindowLayout R := ⟨.leaf pane, none⟩

def isZoomed (layout : WindowLayout R) : Bool := layout.zoom.isSome

/-- Take the zoom away, the tree it saved coming back. -/
def unzoom (layout : WindowLayout R) : WindowLayout R :=
  match layout.zoom with
  | some zoom => ⟨zoom.savedLayout, none⟩
  | none => layout

/-- Zoom a pane of a window that shows at least two. -/
def zoomIn (layout : WindowLayout R) (pane : PaneId) : WindowLayout R :=
  if layout.tree.containsPane pane && layout.tree.paneCount > 1 then
    ⟨.leaf pane, some ⟨layout.tree, pane⟩⟩
  else layout

def toggleZoom (layout : WindowLayout R) (pane : PaneId) : WindowLayout R :=
  match layout.zoom with
  | some zoom =>
    if zoom.zoomedPane = pane then ⟨zoom.savedLayout, none⟩
    else zoomIn ⟨zoom.savedLayout, none⟩ pane
  | none => layout.zoomIn pane

variable [F32 R]

/-- Split a pane, unzooming first. The flag says whether the pane was found. -/
def splitPane (layout : WindowLayout R) (targetPane newPane : PaneId) (dir : Direction)
    (ratio : R) : WindowLayout R × Bool :=
  let shown := layout.unzoom
  match shown.tree.splitPane targetPane newPane dir ratio with
  | some newTree => ({ shown with tree := newTree }, true)
  | none => (shown, false)

/-- Remove a pane, unzooming first. The flag says whether the pane was removed. -/
def removePane (layout : WindowLayout R) (pane : PaneId) : WindowLayout R × Bool :=
  let shown := layout.unzoom
  match shown.tree.removePane pane with
  | some newTree => ({ shown with tree := newTree }, true)
  | none => (shown, false)

end WindowLayout

/-- The pane a layout shows alone. -/
def zoomedPane (layout : WindowLayout R) : Option PaneId := layout.zoom.map (·.zoomedPane)

/-! ## The leaves of a tree

Every operation on trees is described by what it does to the list of leaves.
-/

namespace LayoutNode

variable (t : LayoutNode R)
variable {target : PaneId}

theorem containsPane_iff (p : PaneId) : t.containsPane p = true ↔ p ∈ t.paneIds := by
  induction t with
  | leaf pane => simp [containsPane, paneIds, eq_comm]
  | node dir ratio a b iha ihb => simp [containsPane, paneIds, iha, ihb]

theorem paneCount_eq_length : t.paneCount = t.paneIds.length := by
  induction t with
  | leaf pane => rfl
  | node dir ratio a b iha ihb => simp [paneCount, paneIds, iha, ihb]

theorem paneIds_ne_nil : t.paneIds ≠ [] := by
  induction t with
  | leaf pane => simp [paneIds]
  | node dir ratio a b iha ihb => simp [paneIds, iha]

theorem eq_leaf_of_paneId {t : LayoutNode R} {p : PaneId} (h : t.paneId = some p) : t = leaf p := by
  cases t with
  | leaf pane => simpa [paneId] using h
  | node dir ratio a b => simp [paneId] at h

/-- A pane that is in a tree without being its only node has company. -/
theorem one_lt_length_of_mem {t : LayoutNode R} {p : PaneId} (hmem : p ∈ t.paneIds)
    (hleaf : t.paneId ≠ some p) : 1 < t.paneIds.length := by
  cases t with
  | leaf pane =>
    rw [paneIds, mem_singleton] at hmem
    exact absurd (by rw [hmem, paneId]) hleaf
  | node dir ratio a b =>
    have ha := List.length_pos_iff.mpr a.paneIds_ne_nil
    have hb := List.length_pos_iff.mpr b.paneIds_ne_nil
    rw [paneIds, length_append]
    omega

variable [F32 R]

@[simp]
theorem paneIds_split (dir : Direction) (ratio : R) (a b : LayoutNode R) :
    (split dir ratio a b).paneIds = a.paneIds ++ b.paneIds := rfl

/-- A split adds the new pane and keeps every other leaf. -/
theorem paneIds_splitPane {t t' : LayoutNode R} {new : PaneId} {dir : Direction} {ratio : R}
    (h : t.splitPane target new dir ratio = some t') : t'.paneIds.Perm (new :: t.paneIds) := by
  induction t generalizing t' with
  | leaf pane =>
    rw [splitPane] at h
    split_ifs at h with hpane
    cases h
    subst hpane
    exact List.Perm.swap new pane []
  | node d r a b iha ihb =>
    rw [splitPane] at h
    split at h
    · rename_i newA hnewA
      cases h
      exact (iha hnewA).append_right b.paneIds
    · obtain ⟨newB, hnewB, rfl⟩ := Option.map_eq_some_iff.mp h
      exact ((ihb hnewB).append_left a.paneIds).trans perm_middle

theorem splitPane_isSome_iff (target new : PaneId) (dir : Direction) (ratio : R) :
    (t.splitPane target new dir ratio).isSome = true ↔ target ∈ t.paneIds := by
  induction t with
  | leaf pane =>
    by_cases hpane : pane = target
    · simp [splitPane, paneIds, hpane]
    · simp [splitPane, paneIds, hpane, Ne.symm hpane]
  | node d r a b iha ihb =>
    rw [splitPane, paneIds, mem_append, ← iha, ← ihb]
    cases a.splitPane target new dir ratio with
    | some newA => simp
    | none => simp

theorem paneIds_resizePane {t t' : LayoutNode R} {dir : Direction} {delta : R}
    (h : t.resizePane target dir delta = some t') : t'.paneIds = t.paneIds := by
  induction t generalizing t' with
  | leaf pane => cases h
  | node d r a b iha ihb =>
    simp only [resizePane] at h
    split_ifs at h with hnone hdir hA
    · cases h
      rfl
    · cases h
      rfl
    · obtain ⟨newA, hnewA, rfl⟩ := Option.map_eq_some_iff.mp h
      simp [paneIds, iha hnewA]
    · obtain ⟨newB, hnewB, rfl⟩ := Option.map_eq_some_iff.mp h
      simp [paneIds, ihb hnewB]

/-- A pane that is not the only leaf can be removed, and takes nothing with it. -/
theorem paneIds_removePane (hnodup : t.paneIds.Nodup)
    (hmem : target ∈ t.paneIds) (hmore : 1 < t.paneIds.length) :
    ∃ t', t.removePane target = some t' ∧ t'.paneIds = t.paneIds.erase target := by
  induction t with
  | leaf pane => simp [paneIds] at hmore
  | node d r a b iha ihb =>
    rw [paneIds, nodup_append'] at hnodup
    obtain ⟨hndA, hndB, hdisj⟩ := hnodup
    simp only [removePane]
    split_ifs with hleafA hleafB hinA hinB
    · rw [eq_leaf_of_paneId hleafA]
      exact ⟨b, rfl, by simp [paneIds]⟩
    · have hleaf := eq_leaf_of_paneId hleafB
      subst hleaf
      have hnotA : target ∉ a.paneIds := fun hA => hdisj hA (by simp [paneIds])
      exact ⟨a, rfl, by simp [paneIds, erase_append_right _ hnotA]⟩
    · rw [containsPane_iff] at hinA
      have hmoreA := one_lt_length_of_mem hinA hleafA
      obtain ⟨newA, hnewA, hids⟩ := iha hndA hinA hmoreA
      refine ⟨split d r newA b, by rw [hnewA]; rfl, ?_⟩
      rw [paneIds_split, hids, paneIds, erase_append_left _ hinA]
    · rw [containsPane_iff] at hinA hinB
      have hmoreB := one_lt_length_of_mem hinB hleafB
      obtain ⟨newB, hnewB, hids⟩ := ihb hndB hinB hmoreB
      refine ⟨split d r a newB, by rw [hnewB]; rfl, ?_⟩
      rw [paneIds_split, hids, paneIds, erase_append_right _ hinA]
    · rw [containsPane_iff] at hinA hinB
      rw [paneIds, mem_append] at hmem
      exact absurd hmem (by tauto)

theorem paneIds_swapInner (a b : PaneId) :
    (t.swapInner a b).paneIds = t.paneIds.map (Equiv.swap a b) := by
  induction t with
  | leaf pane =>
    rw [swapInner, paneIds, map_singleton, Equiv.swap_apply_def]
    split_ifs <;> rfl
  | node d r x y ihx ihy => rw [swapInner, paneIds_split, ihx, ihy, paneIds, map_append]

/-- Swapping two panes of a tree reorders its leaves. -/
theorem paneIds_swapPanes {t t' : LayoutNode R} {a b : PaneId} (hnodup : t.paneIds.Nodup)
    (h : t.swapPanes a b = some t') : t'.paneIds.Perm t.paneIds := by
  rw [swapPanes] at h
  split_ifs at h with hmissing
  cases h
  simp only [Bool.or_eq_true, Bool.not_eq_true', not_or, Bool.not_eq_false,
    containsPane_iff] at hmissing
  rw [paneIds_swapInner]
  have hndMap : (t.paneIds.map (Equiv.swap a b)).Nodup := hnodup.map (Equiv.injective _)
  rw [perm_ext_iff_of_nodup hndMap hnodup]
  intro p
  rw [mem_map]
  constructor
  · rintro ⟨q, hq, rfl⟩
    rw [Equiv.swap_apply_def]
    split_ifs
    · exact hmissing.2
    · exact hmissing.1
    · exact hq
  · intro hp
    refine ⟨Equiv.swap a b p, ?_, Equiv.swap_apply_self a b p⟩
    rw [Equiv.swap_apply_def]
    split_ifs
    · exact hmissing.2
    · exact hmissing.1
    · exact hp

end LayoutNode

/-! ## Layouts with a zoom

The full tree of a layout is the one that comes back when the zoom goes away.
-/

namespace WindowLayout

variable {layout : WindowLayout R}

/-- The tree of all the window's panes: the saved one while zoomed. -/
def full (layout : WindowLayout R) : LayoutNode R := layout.unzoom.tree

/-- The leaves are distinct, and a zoomed layout shows one leaf of its full tree. -/
structure WellFormed (layout : WindowLayout R) : Prop where
  nodup : layout.full.paneIds.Nodup
  shown : ∀ zoom, layout.zoom = some zoom →
    layout.tree = .leaf zoom.zoomedPane ∧ zoom.zoomedPane ∈ layout.full.paneIds

theorem full_of_unzoomed (h : layout.zoom = none) : layout.full = layout.tree := by
  rw [full, unzoom, h]

theorem full_of_zoom {zoom : ZoomState R} (h : layout.zoom = some zoom) :
    layout.full = zoom.savedLayout := by
  rw [full, unzoom, h]

@[simp]
theorem unzoom_zoom (layout : WindowLayout R) : layout.unzoom.zoom = none := by
  rw [unzoom]
  split
  · rfl
  · assumption

/-- A layout without zoom is well formed as soon as its leaves are distinct. -/
theorem WellFormed.of_unzoomed (hzoom : layout.zoom = none)
    (hnodup : layout.tree.paneIds.Nodup) : layout.WellFormed where
  nodup := by rwa [full_of_unzoomed hzoom]
  shown := by
    intro zoom h
    rw [hzoom] at h
    cases h

theorem wellFormed_new (pane : PaneId) : (WindowLayout.new pane : WindowLayout R).WellFormed :=
  .of_unzoomed rfl (by simp [WindowLayout.new, LayoutNode.paneIds])

@[simp]
theorem full_unzoom (layout : WindowLayout R) : layout.unzoom.full = layout.full := by
  rw [full_of_unzoomed layout.unzoom_zoom, full]

@[simp]
theorem full_zoomIn (layout : WindowLayout R) (pane : PaneId) (h : layout.zoom = none) :
    (layout.zoomIn pane).full = layout.full := by
  rw [zoomIn]
  split_ifs
  · rw [full_of_zoom rfl, full_of_unzoomed h]
  · rfl

theorem toggleZoom_eq (layout : WindowLayout R) (pane : PaneId) :
    layout.toggleZoom pane =
      if zoomedPane layout = some pane then layout.unzoom else layout.unzoom.zoomIn pane := by
  rw [toggleZoom, zoomedPane, unzoom]
  cases layout.zoom with
  | none => rfl
  | some zoom => simp

@[simp]
theorem full_toggleZoom (layout : WindowLayout R) (pane : PaneId) :
    (layout.toggleZoom pane).full = layout.full := by
  rw [toggleZoom_eq]
  split_ifs
  · exact layout.full_unzoom
  · rw [full_zoomIn _ _ layout.unzoom_zoom, full_unzoom]

/-- Toggling the zoom keeps a layout well formed, whatever pane is named. -/
theorem WellFormed.toggleZoom (h : layout.WellFormed) (pane : PaneId) :
    (layout.toggleZoom pane).WellFormed where
  nodup := by
    rw [full_toggleZoom]
    exact h.nodup
  shown := by
    intro zoom hzoom
    rw [full_toggleZoom]
    rw [toggleZoom_eq] at hzoom ⊢
    split_ifs at hzoom ⊢ with hsame
    · rw [unzoom_zoom] at hzoom
      cases hzoom
    · rw [zoomIn] at hzoom ⊢
      split_ifs at hzoom ⊢ with hin
      · cases hzoom
        rw [Bool.and_eq_true, LayoutNode.containsPane_iff] at hin
        exact ⟨rfl, hin.1⟩
      · rw [unzoom_zoom] at hzoom
        cases hzoom

/-- Toggling the zoomed pane takes the zoom away. -/
theorem toggleZoom_zoomed {pane : PaneId}
    (h : zoomedPane layout = some pane) : layout.toggleZoom pane = layout.unzoom := by
  rw [toggleZoom_eq, if_pos h]

/-- The pane toggled is the only one a layout can be zoomed on afterwards. -/
theorem zoomedPane_toggleZoom {pane zoomed : PaneId}
    (h : zoomedPane (layout.toggleZoom pane) = some zoomed) : zoomed = pane := by
  rw [toggleZoom_eq] at h
  split_ifs at h
  · simp [zoomedPane] at h
  · rw [zoomIn] at h
    split_ifs at h
    · simpa [zoomedPane, eq_comm] using h
    · simp [zoomedPane] at h

variable [F32 R]

/-- A split that succeeds splits the full tree and leaves no zoom. -/
theorem splitPane_ok {target new : PaneId} {dir : Direction} {ratio : R}
    (h : (layout.splitPane target new dir ratio).2 = true) :
    ∃ tree, layout.full.splitPane target new dir ratio = some tree ∧
      (layout.splitPane target new dir ratio).1 = ⟨tree, none⟩ := by
  rw [full]
  rw [splitPane] at h ⊢
  cases htree : layout.unzoom.tree.splitPane target new dir ratio with
  | none => simp [htree] at h
  | some tree => exact ⟨tree, rfl, by simp⟩

/-- Removing a pane leaves no zoom, and the full tree without the pane. -/
theorem removePane_fst (layout : WindowLayout R) (pane : PaneId) :
    (layout.removePane pane).1 = ⟨(layout.full.removePane pane).getD layout.full, none⟩ := by
  rw [removePane, full]
  cases hzoom : layout.unzoom with
  | mk tree zoom =>
    have hnone := layout.unzoom_zoom
    rw [hzoom] at hnone
    dsimp only at hnone ⊢
    subst hnone
    cases tree.removePane pane with
    | none => rfl
    | some tree => rfl

end WindowLayout
end Shux
