/-
# Resizing the nearest split

The splits around a pane are listed from the root down to it. Resizing walks that list from the
root and moves the first split of the direction it is asked for. The split nearest to the pane
is the last one of that direction, so the two are the same split exactly when there is only one.
-/

import Shux.Core.Focus

namespace Shux

open List F32

variable {R : Type}

/-- What a split is to a pane in it: which half the pane is in, and what the other half is. -/
structure Frame (R : Type) where
  dir : Direction
  ratio : R
  inA : Bool
  sibling : LayoutNode R

/-- Put a tree in place of the half the pane is in. -/
def Frame.fill (f : Frame R) (t : LayoutNode R) : LayoutNode R :=
  if f.inA then .node f.dir f.ratio t f.sibling else .node f.dir f.ratio f.sibling t

/-- A tree inside splits that are listed from the root down. -/
def fill (frames : List (Frame R)) (t : LayoutNode R) : LayoutNode R := frames.foldr Frame.fill t

namespace LayoutNode

/-- The splits around a pane, from the root down. -/
def path (target : PaneId) : LayoutNode R → Option (List (Frame R))
  | leaf pane => if pane = target then some [] else none
  | node dir ratio a b =>
    if a.containsPane target then (a.path target).map (⟨dir, ratio, true, b⟩ :: ·)
    else (b.path target).map (⟨dir, ratio, false, a⟩ :: ·)

theorem path_eq_none_iff (t : LayoutNode R) (target : PaneId) :
    t.path target = none ↔ t.containsPane target = false := by
  induction t with
  | leaf pane => simp [path, containsPane]
  | node dir ratio a b iha ihb =>
    rw [path, containsPane]
    cases ha : a.containsPane target with
    | true => simpa [ha] using iha
    | false => simpa using ihb

/-- The splits around a pane and the pane make up the tree. -/
theorem fill_path {t : LayoutNode R} {target : PaneId} {frames : List (Frame R)}
    (h : t.path target = some frames) : fill frames (leaf target) = t := by
  induction t generalizing frames with
  | leaf pane =>
    rw [path] at h
    split_ifs at h with hpane
    cases h
    rw [hpane]
    rfl
  | node dir ratio a b iha ihb =>
    rw [path] at h
    split_ifs at h with ha
    · obtain ⟨rest, hrest, rfl⟩ := Option.map_eq_some_iff.1 h
      simp [fill, Frame.fill, ← iha hrest]
    · obtain ⟨rest, hrest, rfl⟩ := Option.map_eq_some_iff.1 h
      simp [fill, Frame.fill, ← ihb hrest]

end LayoutNode

/-- Splits that keep the pane in the same halves are told apart by the tree. -/
theorem fill_injective {frames frames' : List (Frame R)} {t : LayoutNode R}
    (hsides : frames.map Frame.inA = frames'.map Frame.inA) (h : fill frames t = fill frames' t) :
    frames = frames' := by
  induction frames generalizing frames' with
  | nil =>
    cases frames' with
    | nil => rfl
    | cons f' rest' => cases hsides
  | cons f rest ih =>
    cases frames' with
    | nil => cases hsides
    | cons f' rest' =>
      rw [map_cons, map_cons, List.cons.injEq] at hsides
      obtain ⟨dir, ratio, inA, sibling⟩ := f
      obtain ⟨dir', ratio', inA', sibling'⟩ := f'
      obtain ⟨hside, hsides⟩ := hsides
      dsimp only at hside
      subst hside
      cases inA with
      | true =>
        simp only [fill, foldr_cons, Frame.fill, if_true, LayoutNode.node.injEq] at h
        obtain ⟨rfl, rfl, hrest, rfl⟩ := h
        rw [ih hsides hrest]
      | false =>
        simp only [fill, foldr_cons, Frame.fill, Bool.false_eq_true, if_false,
          LayoutNode.node.injEq] at h
        obtain ⟨rfl, rfl, rfl, hrest⟩ := h
        rw [ih hsides hrest]

section Moving

variable [F32 R]

/-- The split with its ratio moved so that the pane's half grows by the amount, and clamped. -/
def Frame.moved (delta : R) (f : Frame R) : Frame R :=
  { f with ratio := clampRatio (if f.inA then add f.ratio delta else sub f.ratio delta) }

namespace LayoutNode

variable {t : LayoutNode R} {target : PaneId}

theorem Settled.of_fill {f : Frame R} (h : (f.fill t).Settled) :
    clampRatio f.ratio = f.ratio ∧ t.Settled := by
  rw [Frame.fill] at h
  split_ifs at h
  · exact ⟨h.1, h.2.1⟩
  · exact ⟨h.1, h.2.2⟩

theorem resizePane_of_not_mem (dir : Direction) (delta : R)
    (h : t.path target = none) : t.resizePane target dir delta = none := by
  cases t with
  | leaf pane => rfl
  | node d r a b =>
    have hin := (path_eq_none_iff _ _).1 h
    rw [containsPane, Bool.or_eq_false_iff] at hin
    simp [resizePane, hin.1, hin.2]

variable [LawfulF32 R]

/-- The first split around a pane is the root, and the others are around it in its half. Resizing
moves the root, or goes on in that half. -/
theorem path_cons {f : Frame R} {rest : List (Frame R)} (h : t.path target = some (f :: rest)) :
    ∃ u, t = f.fill u ∧ u.path target = some rest ∧ ∀ dir delta, t.resizePane target dir delta =
      if f.dir = dir then some ((f.moved delta).fill u)
      else (u.resizePane target dir delta).map { f with ratio := clampRatio f.ratio }.fill := by
  cases t with
  | leaf pane =>
    rw [path] at h
    split_ifs at h
    cases h
  | node d r a b =>
    rw [path] at h
    split_ifs at h with ha
    · obtain ⟨_, hrest, heq⟩ := Option.map_eq_some_iff.1 h
      cases heq
      refine ⟨a, rfl, hrest, fun dir delta => ?_⟩
      by_cases hdir : d = dir
      · simp [resizePane, ha, hdir, split, Frame.fill, Frame.moved, clampRatio_clampRatio]
      · simp only [resizePane, ha, hdir, split, if_true, if_false]
        rfl
    · obtain ⟨_, hrest, heq⟩ := Option.map_eq_some_iff.1 h
      cases heq
      have hb : b.containsPane target = true := by
        rw [← Bool.not_eq_false, ← path_eq_none_iff, hrest]
        simp
      refine ⟨b, rfl, hrest, fun dir delta => ?_⟩
      by_cases hdir : d = dir
      · simp [resizePane, ha, hb, hdir, split, Frame.fill, Frame.moved, clampRatio_clampRatio]
      · simp only [resizePane, ha, hb, hdir, split, if_false]
        rfl

/-- Without a split of the direction around the pane there is nothing to resize. -/
theorem resizePane_eq_none {dir : Direction} (delta : R)
    {frames : List (Frame R)} (hpath : t.path target = some frames)
    (h : ∀ f ∈ frames, f.dir ≠ dir) : t.resizePane target dir delta = none := by
  induction frames generalizing t with
  | nil =>
    cases t with
    | leaf pane => rfl
    | node d r a b =>
      rw [path] at hpath
      split_ifs at hpath <;> simp at hpath
  | cons f rest ih =>
    obtain ⟨u, -, hu, hresize⟩ := path_cons hpath
    rw [hresize, if_neg (h f mem_cons_self), ih hu fun f hf => h f (mem_cons_of_mem _ hf)]
    rfl

/-- The outermost split of the direction is the one that is moved. -/
theorem resizePane_eq_some (ht : t.Settled) {dir : Direction}
    (delta : R) {above below : List (Frame R)} {f : Frame R}
    (hpath : t.path target = some (above ++ f :: below)) (hdir : f.dir = dir)
    (habove : ∀ g ∈ above, g.dir ≠ dir) :
    t.resizePane target dir delta =
      some (fill (above ++ f.moved delta :: below) (leaf target)) := by
  induction above generalizing t with
  | nil =>
    obtain ⟨u, -, hu, hresize⟩ := path_cons hpath
    rw [hresize, if_pos hdir, ← fill_path hu]
    rfl
  | cons g above ih =>
    obtain ⟨u, rfl, hu, hresize⟩ := path_cons hpath
    obtain ⟨hratio, hsettled⟩ := ht.of_fill
    rw [hresize, if_neg (habove g mem_cons_self),
      ih hsettled hu fun g hg => habove g (mem_cons_of_mem _ hg), hratio]
    rfl

end LayoutNode

/-- Ratios that are numbers: the comparison is that of a linear order, and the bounds are in
order. -/
class OrderedF32 (R : Type) [LinearOrder R] [F32 R] : Prop where
  lt_eq : ∀ a b : R, lt a b = decide (a < b)
  minRatio_le_maxRatio : (minRatio : R) ≤ maxRatio

/-- Amounts that are not negative: adding one lowers no ratio, and taking it away raises none. -/
def Growing [LE R] (delta : R) : Prop := ∀ r : R, r ≤ add r delta ∧ sub r delta ≤ r

/-- Amounts that are not positive. -/
def Shrinking [LE R] (delta : R) : Prop := ∀ r : R, add r delta ≤ r ∧ r ≤ sub r delta

/-- The half the pane is in has at least the share it had. -/
def Frame.Grows [LE R] (f f' : Frame R) : Prop :=
  if f.inA then f.ratio ≤ f'.ratio else f'.ratio ≤ f.ratio

section Ordered

variable [LinearOrder R] [OrderedF32 R]

theorem clampRatio_eq (r : R) : clampRatio r = min maxRatio (max minRatio r) := by
  have hbounds := OrderedF32.minRatio_le_maxRatio (R := R)
  simp only [clampRatio, OrderedF32.lt_eq, decide_eq_true_eq]
  split_ifs <;> grind

instance : LawfulF32 R where
  not_maxRatio_lt_minRatio := by
    rw [OrderedF32.lt_eq, decide_eq_false_iff_not, not_lt]
    exact OrderedF32.minRatio_le_maxRatio
  not_maxRatio_lt_self := by simp [OrderedF32.lt_eq]

theorem clampRatio_mono {r r' : R} (h : r ≤ r') : clampRatio r ≤ clampRatio r' := by
  rw [clampRatio_eq, clampRatio_eq]
  exact min_le_min_left _ (max_le_max_left _ h)

theorem clampRatio_bounds (r : R) : minRatio ≤ clampRatio r ∧ clampRatio r ≤ maxRatio := by
  have hbounds := OrderedF32.minRatio_le_maxRatio (R := R)
  rw [clampRatio_eq]
  exact ⟨le_min hbounds (le_max_left _ _), min_le_left _ _⟩

/-- A moved split stays within the bounds, and the pane grows or shrinks as asked. -/
theorem Frame.moved_spec (f : Frame R) (hf : clampRatio f.ratio = f.ratio) (delta : R) :
    minRatio ≤ (f.moved delta).ratio ∧ (f.moved delta).ratio ≤ maxRatio ∧
      (Growing delta → f.Grows (f.moved delta)) ∧
      (Shrinking delta → (f.moved delta).Grows f) := by
  refine ⟨(clampRatio_bounds _).1, (clampRatio_bounds _).2, ?_, ?_⟩
  all_goals
    intro hdelta
    obtain ⟨hadd, hsub⟩ := hdelta f.ratio
    cases hside : f.inA with
    | true => simpa [Grows, moved, hside, hf] using clampRatio_mono hadd
    | false => simpa [Grows, moved, hside, hf] using clampRatio_mono hsub

/-- The splits around a pane have settled ratios. -/
theorem LayoutNode.Settled.path {t : LayoutNode R} (ht : t.Settled) {target : PaneId}
    {frames : List (Frame R)} (h : t.path target = some frames) :
    ∀ f ∈ frames, clampRatio f.ratio = f.ratio := by
  induction frames generalizing t with
  | nil => simp
  | cons f rest ih =>
    obtain ⟨u, rfl, hu, -⟩ := LayoutNode.path_cons h
    exact forall_mem_cons.2 ⟨ht.of_fill.1, ih ht.of_fill.2 hu⟩

/-- Resizing moves the split of the direction that is nearest to the pane and no other, within
the bounds and the way it is asked; without such a split it fails. -/
structure AdjustsNearest (t : LayoutNode R) (target : PaneId) (dir : Direction) (delta : R) :
    Prop where
  nearest : ∀ above f below, t.path target = some (above ++ f :: below) → f.dir = dir →
    (∀ g ∈ below, g.dir ≠ dir) →
      t.resizePane target dir delta = some (fill (above ++ f.moved delta :: below) (.leaf target)) ∧
      minRatio ≤ (f.moved delta).ratio ∧ (f.moved delta).ratio ≤ maxRatio ∧
      (Growing delta → f.Grows (f.moved delta)) ∧ (Shrinking delta → (f.moved delta).Grows f)
  missing : (∀ frames, t.path target = some frames → ∀ f ∈ frames, f.dir ≠ dir) →
    t.resizePane target dir delta = none

/-- Of two splits of the direction around the pane, the outermost and the nearest, neither can
move. -/
def NoOuterMoves (t : LayoutNode R) (target : PaneId) (dir : Direction) (delta : R) : Prop :=
  ∀ above f between g below, t.path target = some (above ++ f :: (between ++ g :: below)) →
    f.dir = dir → g.dir = dir → (∀ h ∈ above, h.dir ≠ dir) → (∀ h ∈ below, h.dir ≠ dir) →
      f.moved delta = f ∧ g.moved delta = g

omit [F32 R] [LinearOrder R] [OrderedF32 R] in
/-- The first of the splits that have the direction. -/
theorem exists_outermost {frames : List (Frame R)} {dir : Direction}
    (h : ∃ f ∈ frames, f.dir = dir) :
    ∃ above f below, frames = above ++ f :: below ∧ f.dir = dir ∧ ∀ g ∈ above, g.dir ≠ dir := by
  induction frames with
  | nil => simp at h
  | cons f rest ih =>
    by_cases hf : f.dir = dir
    · exact ⟨[], f, rest, rfl, hf, by simp⟩
    · obtain ⟨g, hg, hdir⟩ := h
      obtain rfl | hg := mem_cons.1 hg
      · exact (hf hdir).elim
      · obtain ⟨above, f', below, rfl, hf', habove⟩ := ih ⟨g, hg, hdir⟩
        refine ⟨f :: above, f', below, rfl, hf', ?_⟩
        exact forall_mem_cons.2 ⟨hf, habove⟩

omit [LinearOrder R] [OrderedF32 R] in
/-- Moving one split or another gives the same tree only when neither moves. -/
theorem moved_of_fill_eq {above between below : List (Frame R)} {f g : Frame R} {delta : R}
    {t : LayoutNode R}
    (h : fill (above ++ f.moved delta :: (between ++ g :: below)) t =
      fill (above ++ f :: (between ++ g.moved delta :: below)) t) :
    f.moved delta = f ∧ g.moved delta = g := by
  have hframes := fill_injective (by simp [Frame.moved]) h
  rw [append_cancel_left_eq, List.cons.injEq, append_cancel_left_eq, List.cons.injEq]
    at hframes
  exact ⟨hframes.1, hframes.2.1.symm⟩

/-- Resizing does what it should exactly when no split of the direction lies around the nearest
one, unless neither of the two can move. -/
theorem resizePane_adjustsNearest_iff {t : LayoutNode R} (ht : t.Settled) (target : PaneId)
    (dir : Direction) (delta : R) :
    AdjustsNearest t target dir delta ↔ NoOuterMoves t target dir delta := by
  constructor
  · intro hadjusts above f between g below hpath hf hg habove hbelow
    have houter := LayoutNode.resizePane_eq_some ht delta hpath hf habove
    have hpath' : t.path target = some ((above ++ f :: between) ++ g :: below) := by
      rw [hpath, append_assoc, cons_append]
    have hnearest := (hadjusts.nearest _ g below hpath' hg hbelow).1
    rw [houter, Option.some.injEq, append_assoc, cons_append] at hnearest
    exact moved_of_fill_eq hnearest
  · intro hfixed
    refine ⟨fun above f below hpath hf hbelow => ⟨?_, ?_⟩, fun hmissing => ?_⟩
    · by_cases hsole : ∃ h ∈ above, h.dir = dir
      · obtain ⟨first, outer, between, rfl, houter, hfirst⟩ := exists_outermost hsole
        have hpath' : t.path target = some (first ++ outer :: (between ++ f :: below)) := by
          rw [hpath, append_assoc, cons_append]
        obtain ⟨hstill, hstill'⟩ := hfixed _ _ _ _ _ hpath' houter hf hfirst hbelow
        rw [LayoutNode.resizePane_eq_some ht delta hpath' houter hfirst, hstill, hstill',
          append_assoc, cons_append]
      · exact LayoutNode.resizePane_eq_some ht delta hpath hf fun g hg hdir => hsole ⟨g, hg, hdir⟩
    · exact f.moved_spec (ht.path hpath f (by simp)) delta
    · cases hpath : t.path target with
      | none => exact LayoutNode.resizePane_of_not_mem dir delta hpath
      | some frames => exact LayoutNode.resizePane_eq_none delta hpath (hmissing frames hpath)

end Ordered
end Moving

instance : OrderedF32 ℚ where
  lt_eq _ _ := rfl
  minRatio_le_maxRatio := by simp only [minRatio, maxRatio]; norm_num

namespace Sample

/-- Three panes side by side, the first two in a split of their own. -/
def row : LayoutNode ℚ :=
  .node .vertical (1 / 2) (.node .vertical (1 / 2) (.leaf ⟨⟨1⟩⟩) (.leaf ⟨⟨2⟩⟩)) (.leaf ⟨⟨3⟩⟩)

theorem settled_row : row.Settled := by
  refine ⟨?_, ⟨?_, trivial, trivial⟩, trivial⟩ <;> with_unfolding_all decide

/-- The ratio of the outermost split. -/
def rootRatio : LayoutNode ℚ → ℚ
  | .leaf _ => 0
  | .node _ ratio _ _ => ratio

/-- The third pane has one split around it. -/
theorem resizePane_adjustsNearest_row :
    row.Settled ∧ AdjustsNearest row ⟨⟨3⟩⟩ .vertical (1 / 10 : ℚ) := by
  refine ⟨settled_row, (resizePane_adjustsNearest_iff settled_row _ _ _).2 ?_⟩
  intro above f between g below hpath hf hg habove hbelow
  have hlen := congrArg (Option.map List.length) hpath
  simp [row, LayoutNode.path, LayoutNode.containsPane] at hlen
  omega

/-- Growing the first pane moves the split around the first two and the third. -/
theorem resizePane_outermost : ¬ AdjustsNearest row ⟨⟨1⟩⟩ .vertical (1 / 10 : ℚ) := by
  intro hadjusts
  have hpath : row.path ⟨⟨1⟩⟩ = some ([⟨.vertical, 1 / 2, true, .leaf ⟨⟨3⟩⟩⟩] ++
      ⟨.vertical, 1 / 2, true, .leaf ⟨⟨2⟩⟩⟩ :: []) := rfl
  have hnearest := (hadjusts.nearest _ _ _ hpath rfl (by simp)).1
  have hroot : (row.resizePane ⟨⟨1⟩⟩ .vertical (1 / 10)).map rootRatio = some (1 / 2) := by
    rw [hnearest]
    rfl
  revert hroot
  with_unfolding_all decide

end Sample

end Shux
