/-
# Fitting a layout to its panes

A capture draws every pane at the size its grid has. The layout's ratios are taken from those
sizes, and the viewport starts at their sum and grows by the largest shortfall until no pane is
short. A pane gains at most a cell for each cell the viewport gains, so the growth never passes a
viewport that fits: it ends at the smallest one that has room for the sum, or at the cap.
-/

import Shux.Core.Nearest
import Shux.Core.Tiles

namespace Shux

open List

/-- Addition on `u16` that stops at the largest value. -/
def u16SaturatingAdd (a b : Nat) : Nat := min 65535 (a + b)

/-- A viewport axis grown by its shortfall, up to `max`. -/
def grow (max : Fin 65536) (short : Nat → Nat) (w : Nat) : Nat :=
  if short w = 0 ∨ max ≤ w then w
  else grow max short (min (u16SaturatingAdd w (short w)) max)
termination_by max - w
decreasing_by
  rename_i h
  rw [not_or] at h
  have := max.isLt
  simp only [u16SaturatingAdd]
  omega

namespace LayoutNode

section Code

variable {R : Type} [F32 R] [Div R]

/-- The tree with each split's ratio taken from the sizes of its sides, and those sizes added
along each split, a separator between. Nothing when some pane has no size. -/
def reratioed (sizeOf : PaneId → Option (Nat × Nat)) :
    LayoutNode R → Option (LayoutNode R × Nat × Nat)
  | leaf pane => (sizeOf pane).map fun size => (leaf pane, size)
  | node dir _ a b =>
    match a.reratioed sizeOf, b.reratioed sizeOf with
    | some (a, aw, ah), some (b, bw, bh) =>
      let sides := match dir with
        | .vertical => (aw, bw)
        | .horizontal => (ah, bh)
      let size := match dir with
        | .vertical => (u16SaturatingAdd (u16SaturatingAdd aw separatorSize) bw, max ah bh)
        | .horizontal => (max aw bw, u16SaturatingAdd (u16SaturatingAdd ah separatorSize) bh)
      let ratio : R := F32.ofU16 sides.1 / F32.ofU16 (max (u16SaturatingAdd sides.1 sides.2) 1)
      some (split dir ratio a b, size)
    | _, _ => none

/-- The largest shortfall of a pane in a viewport. -/
def deficit (sizeOf : PaneId → Option (Nat × Nat)) (tree : LayoutNode R) (w h : Nat)
    (axis : Rect → Nat × Nat → Nat) : Nat :=
  ((tree.computeRects ⟨0, 0, w, h⟩).filterMap
    fun entry => (sizeOf entry.1).map (axis entry.2)).max?.getD 0

/-- The layout with its ratios taken from the panes' sizes, and the viewport it is drawn in. -/
def fitted (sizeOf : PaneId → Option (Nat × Nat)) (max : Fin 65536) (t : LayoutNode R) :
    Option (LayoutNode R × Nat × Nat) :=
  (t.reratioed sizeOf).map fun (tree, w, h) =>
    let w' := grow max
      (fun w => tree.deficit sizeOf w h fun rect size => size.1 - rect.width) w
    let h' := grow max
      (fun h => tree.deficit sizeOf w' h fun rect size => size.2 - rect.height) h
    (tree, min w' max, min h' max)

end Code
end LayoutNode

theorem le_grow (max : Fin 65536) (short : Nat → Nat) (w : Nat) : w ≤ grow max short w := by
  fun_induction grow max short w with
  | case1 w hstop => exact le_rfl
  | case2 w hgoes ih =>
    rw [not_or] at hgoes
    have hmax := max.isLt
    refine le_trans ?_ ih
    simp only [u16SaturatingAdd]
    omega

/-- When no fitting size is passed by adding the shortfall, growing ends at a size that fits or
at the cap, and passes no fitting size either. -/
theorem grow_spec (max : Fin 65536) (short : Nat → Nat)
    (hstep : ∀ w v, w ≤ v → short v = 0 → w + short w ≤ v) (w : Nat) :
    (short (grow max short w) = 0 ∨ max ≤ grow max short w) ∧
      ∀ v, w ≤ v → short v = 0 → grow max short w ≤ v := by
  fun_induction grow max short w with
  | case1 w hstop => exact ⟨hstop, fun v hv _ => hv⟩
  | case2 w hgoes ih =>
    obtain ⟨hend, hleast⟩ := ih
    refine ⟨hend, fun v hv hfits => hleast v ?_ hfits⟩
    have hfar := hstep w v hv hfits
    simp only [u16SaturatingAdd]
    omega

/-! ## Extents along an axis

Widths depend on the width of the viewport alone, and heights on its height.
-/

/-- A share that neither shrinks nor grows faster than what is shared. -/
theorem share_gentle {ratio : ℚ} (hpos : 0 ≤ ratio) (hone : ratio ≤ 1) {m n : Nat} (h : m ≤ n) :
    share m ratio ≤ share n ratio ∧ share n ratio + m ≤ share m ratio + n := by
  have hcast : (m : ℚ) ≤ n := by exact_mod_cast h
  have hmono : (m : ℚ) * ratio ≤ n * ratio := mul_le_mul_of_nonneg_right hcast hpos
  have hgap : (n - m : ℚ) * ratio ≤ n - m := mul_le_of_le_one_right (by linarith) hone
  have hfloor : ((m : ℚ) * ratio + 1 / 2).floor ≤ ((n : ℚ) * ratio + 1 / 2).floor :=
    Rat.floor_monotone (by linarith)
  have hgain : ((n : ℚ) * ratio + 1 / 2).floor ≤ ((m : ℚ) * ratio + 1 / 2).floor + (n - m : ℤ) := by
    have hbelow := Rat.lt_floor_add_one ((m : ℚ) * ratio + 1 / 2)
    rw [← Int.lt_add_one_iff, Rat.floor_lt_iff]
    push_cast at hbelow ⊢
    linarith
  have hzero : 0 ≤ ((m : ℚ) * ratio + 1 / 2).floor := by
    rw [Rat.le_floor_iff]
    push_cast
    positivity
  simp only [share, F32.roundToU16, F32.mul, F32.ofU16]
  omega

namespace LayoutNode

/-- The cells each pane has along an axis, in a viewport of so many. -/
def spans (axis : Direction) : LayoutNode ℚ → Nat → List (PaneId × Nat)
  | leaf pane, n => [(pane, n)]
  | node dir ratio a b, n =>
    if dir = axis then
      a.spans axis (share (n - 1) ratio) ++ b.spans axis (n - 1 - share (n - 1) ratio)
    else a.spans axis n ++ b.spans axis n

/-- Every ratio is a fraction of the whole. -/
def Fractions : LayoutNode ℚ → Prop
  | leaf _ => True
  | node _ ratio a b => (0 ≤ ratio ∧ ratio ≤ 1) ∧ a.Fractions ∧ b.Fractions

theorem computeRects_along (t : LayoutNode ℚ) (axis : Direction) (viewport : Rect) :
    (t.computeRects viewport).map (fun entry => (entry.1, entry.2.along axis)) =
      t.spans axis (viewport.along axis) := by
  induction t generalizing viewport with
  | leaf pane => rfl
  | node dir ratio a b iha ihb =>
    rw [computeRects, map_append, iha, ihb]
    cases dir <;> cases axis <;> rfl

/-- A pane gains at most a cell for each cell the viewport gains. -/
theorem spans_gentle {t : LayoutNode ℚ} (ht : t.Fractions) (axis : Direction) {m n : Nat}
    (h : m ≤ n) :
    ∀ e ∈ t.spans axis m, ∃ f ∈ t.spans axis n, f.1 = e.1 ∧ f.2 + m ≤ e.2 + n := by
  induction t generalizing m n with
  | leaf pane => simp [spans, Nat.add_comm]
  | node dir ratio a b iha ihb =>
    obtain ⟨⟨hpos, hone⟩, ha, hb⟩ := ht
    intro e he
    rw [spans] at he
    rw [spans]
    split_ifs at he ⊢ with hdir
    · obtain ⟨hmono, hgain⟩ := share_gentle hpos hone (show m - 1 ≤ n - 1 by omega)
      have hm := share_le_total hone (m - 1)
      have hn := share_le_total hone (n - 1)
      obtain he | he := List.mem_append.1 he
      · obtain ⟨f, hf, hpane, hfar⟩ := iha ha hmono e he
        exact ⟨f, mem_append_left _ hf, hpane, by omega⟩
      · obtain ⟨f, hf, hpane, hfar⟩ := ihb hb
          (show m - 1 - share (m - 1) ratio ≤ n - 1 - share (n - 1) ratio by omega) e he
        exact ⟨f, mem_append_right _ hf, hpane, by omega⟩
    · obtain he | he := List.mem_append.1 he
      · obtain ⟨f, hf, hrest⟩ := iha ha h e he
        exact ⟨f, mem_append_left _ hf, hrest⟩
      · obtain ⟨f, hf, hrest⟩ := ihb hb h e he
        exact ⟨f, mem_append_right _ hf, hrest⟩

/-- No pane has more cells than the viewport. -/
theorem spans_le {t : LayoutNode ℚ} (ht : t.Fractions) (axis : Direction) (n : Nat) :
    ∀ entry ∈ t.spans axis n, entry.2 ≤ n := by
  induction t generalizing n with
  | leaf pane => simp [spans]
  | node dir ratio a b iha ihb =>
    obtain ⟨⟨-, hone⟩, ha, hb⟩ := ht
    intro entry hentry
    rw [spans] at hentry
    split_ifs at hentry with hdir
    · have hshare := share_le_total hone (n - 1)
      obtain hentry | hentry := List.mem_append.1 hentry
      · exact (iha ha _ entry hentry).trans (by omega)
      · exact (ihb hb _ entry hentry).trans (by omega)
    · obtain hentry | hentry := List.mem_append.1 hentry
      · exact iha ha n entry hentry
      · exact ihb hb n entry hentry

theorem map_fst_spans (t : LayoutNode ℚ) (axis : Direction) (n : Nat) :
    (t.spans axis n).map Prod.fst = t.paneIds := by
  induction t generalizing n with
  | leaf pane => rfl
  | node dir ratio a b iha ihb =>
    rw [spans, paneIds]
    split_ifs <;> rw [map_append, iha, ihb]

/-- A size's part along an axis. -/
def sizeAlong : Direction → Nat × Nat → Nat
  | .vertical, size => size.1
  | .horizontal, size => size.2

/-- Every pane has at least the cells it asks for along an axis. -/
def Holds {R : Type} [F32 R] (sizeOf : PaneId → Option (Nat × Nat)) (axis : Direction)
    (tree : LayoutNode R) (viewport : Rect) : Prop :=
  ∀ entry ∈ tree.computeRects viewport, ∀ size, sizeOf entry.1 = some size →
    sizeAlong axis size ≤ entry.2.along axis

/-- Below every split along an axis some pane asks for a cell on it. -/
def Asks {R : Type} (sizeOf : PaneId → Option (Nat × Nat)) (axis : Direction) :
    LayoutNode R → Prop
  | leaf _ => True
  | node dir _ a b =>
    (dir = axis → ∃ pane ∈ a.paneIds ++ b.paneIds, ∃ size,
      sizeOf pane = some size ∧ 0 < sizeAlong axis size) ∧ a.Asks sizeOf axis ∧ b.Asks sizeOf axis

/-- The largest shortfall among extents. -/
def shortfall (sizeOf : PaneId → Option (Nat × Nat)) (axis : Direction)
    (entries : List (PaneId × Nat)) : Nat :=
  (entries.filterMap fun e => (sizeOf e.1).map fun size => sizeAlong axis size - e.2).max?.getD 0

section Wanted

variable {sizeOf : PaneId → Option (Nat × Nat)} {axis : Direction}

theorem shortfall_le_iff {entries : List (PaneId × Nat)} {k : Nat} :
    shortfall sizeOf axis entries ≤ k ↔
      ∀ e ∈ entries, ∀ size, sizeOf e.1 = some size → sizeAlong axis size - e.2 ≤ k := by
  have hall : (∀ n ∈ entries.filterMap fun e =>
      (sizeOf e.1).map fun size => sizeAlong axis size - e.2, n ≤ k) ↔
        ∀ e ∈ entries, ∀ size, sizeOf e.1 = some size → sizeAlong axis size - e.2 ≤ k := by
    simp only [mem_filterMap, Option.map_eq_some_iff]
    constructor
    · intro h e he size hsize
      exact h _ ⟨e, he, size, hsize, rfl⟩
    · rintro h n ⟨e, he, size, hsize, rfl⟩
      exact h e he size hsize
  rw [shortfall, ← hall]
  cases hmax : (entries.filterMap fun e =>
      (sizeOf e.1).map fun size => sizeAlong axis size - e.2).max? with
  | none => simp [List.max?_eq_none_iff.1 hmax]
  | some n => exact List.max?_le_iff hmax

/-- Growing by the largest shortfall passes no viewport that fits. -/
theorem add_shortfall_le {t : LayoutNode ℚ} (ht : t.Fractions) {w v : Nat} (h : w ≤ v)
    (hfits : shortfall sizeOf axis (t.spans axis v) = 0) :
    w + shortfall sizeOf axis (t.spans axis w) ≤ v := by
  have hshort : shortfall sizeOf axis (t.spans axis w) ≤ v - w := by
    rw [shortfall_le_iff]
    intro e he size hsize
    obtain ⟨f, hf, hpane, hfar⟩ := spans_gentle ht axis h e he
    have hfit := shortfall_le_iff.1 hfits.le f hf size (by rw [hpane, hsize])
    omega
  omega

theorem shortfall_eq_zero_iff {t : LayoutNode ℚ} {viewport : Rect} :
    shortfall sizeOf axis (t.spans axis (viewport.along axis)) = 0 ↔
      t.Holds sizeOf axis viewport := by
  rw [← Nat.le_zero, shortfall_le_iff, ← computeRects_along, Holds]
  simp only [forall_mem_map, Nat.le_zero, Nat.sub_eq_zero_iff_le]

end Wanted

variable {sizeOf : PaneId → Option (Nat × Nat)}

theorem reratioed_leaf {pane : PaneId}
    {r : LayoutNode ℚ × Nat × Nat} (h : (leaf pane).reratioed sizeOf = some r) :
    r.1 = leaf pane ∧ sizeOf pane = some r.2 := by
  obtain ⟨size, hsize, rfl⟩ := Option.map_eq_some_iff.1 h
  exact ⟨rfl, hsize⟩

/-- The extent along an axis of two trees in a split. -/
def joined (dir axis : Direction) (m n : Nat) : Nat :=
  if dir = axis then u16SaturatingAdd (u16SaturatingAdd m separatorSize) n else max m n

theorem reratioed_node {dir : Direction} {ratio : ℚ}
    {a b : LayoutNode ℚ} {r : LayoutNode ℚ × Nat × Nat}
    (h : (node dir ratio a b).reratioed sizeOf = some r) :
    ∃ a' b' sizeA sizeB ratio', a.reratioed sizeOf = some (a', sizeA) ∧
      b.reratioed sizeOf = some (b', sizeB) ∧ r.1 = split dir ratio' a' b' ∧
      ∀ axis, sizeAlong axis r.2 =
        joined dir axis (sizeAlong axis sizeA) (sizeAlong axis sizeB) := by
  rw [reratioed] at h
  split at h
  · rename_i a' aw ah b' bw bh ha hb
    cases h
    refine ⟨a', b', (aw, ah), (bw, bh), _, ha, hb, rfl, fun axis => ?_⟩
    cases dir <;> cases axis <;> rfl
  · cases h

section Reratioed

variable {sizeOf : PaneId → Option (Nat × Nat)} {t : LayoutNode ℚ}
  {r : LayoutNode ℚ × Nat × Nat}

theorem exists_reratioed (hsized : ∀ pane ∈ t.paneIds, (sizeOf pane).isSome) :
    ∃ r, t.reratioed sizeOf = some r := by
  induction t with
  | leaf pane =>
    obtain ⟨size, hsize⟩ := Option.isSome_iff_exists.1 (hsized pane (by simp [paneIds]))
    exact ⟨(leaf pane, size), by simp [reratioed, hsize]⟩
  | node dir ratio a b iha ihb =>
    rw [paneIds, forall_mem_append] at hsized
    obtain ⟨⟨a', aw, ah⟩, ha⟩ := iha hsized.1
    obtain ⟨⟨b', bw, bh⟩, hb⟩ := ihb hsized.2
    simp [reratioed, ha, hb]

theorem fractions_reratioed (h : t.reratioed sizeOf = some r) : r.1.Fractions := by
  induction t generalizing r with
  | leaf pane =>
    rw [(reratioed_leaf h).1]
    trivial
  | node dir ratio a b iha ihb =>
    obtain ⟨a', b', sizeA, sizeB, ratio', ha, hb, htree, -⟩ := reratioed_node h
    obtain ⟨hlow, hhigh⟩ := clampRatio_bounds ratio'
    rw [htree]
    refine ⟨⟨le_trans ?_ hlow, hhigh.trans ?_⟩, iha ha, ihb hb⟩
    · simp only [F32.minRatio]
      norm_num
    · simp only [F32.maxRatio]
      norm_num

theorem paneIds_reratioed (h : t.reratioed sizeOf = some r) : r.1.paneIds = t.paneIds := by
  induction t generalizing r with
  | leaf pane => rw [(reratioed_leaf h).1]
  | node dir ratio a b iha ihb =>
    obtain ⟨a', b', sizeA, sizeB, ratio', ha, hb, htree, -⟩ := reratioed_node h
    rw [htree, paneIds_split, iha ha, ihb hb, paneIds]

/-- When some pane below each split asks for a cell, no smaller viewport than the sum of the sizes
holds them. -/
theorem sum_le (h : t.reratioed sizeOf = some r) {axis : Direction} (hasks : t.Asks sizeOf axis)
    {n : Nat} (hholds : ∀ e ∈ r.1.spans axis n, ∀ size, sizeOf e.1 = some size →
      sizeAlong axis size ≤ e.2) :
    sizeAlong axis r.2 ≤ n := by
  induction t generalizing r n with
  | leaf pane =>
    obtain ⟨htree, hsize⟩ := reratioed_leaf h
    rw [htree] at hholds
    exact hholds (pane, n) (by simp [spans]) r.2 hsize
  | node dir ratio a b iha ihb =>
    have hfractions := fractions_reratioed h
    have hids := paneIds_reratioed h
    obtain ⟨a', b', sizeA, sizeB, ratio', ha, hb, htree, hsize⟩ := reratioed_node h
    obtain ⟨hsome, hasksA, hasksB⟩ := hasks
    rw [htree] at hholds hfractions hids
    obtain ⟨⟨-, hone⟩, hfracA, hfracB⟩ := hfractions
    rw [hsize, joined]
    simp only [split, spans] at hholds
    split_ifs at hholds ⊢ with hdir
    · have hshare := share_le_total hone (n - 1)
      rw [forall_mem_append] at hholds
      have hsumA : sizeAlong axis sizeA ≤ _ := iha ha hasksA hholds.1
      have hsumB : sizeAlong axis sizeB ≤ _ := ihb hb hasksB hholds.2
      have hroom : 0 < n - 1 := by
        obtain ⟨pane, hpane, size, hsized, hpos⟩ := hsome hdir
        rw [← paneIds_reratioed ha, ← paneIds_reratioed hb, mem_append] at hpane
        obtain hpane | hpane := hpane
        · rw [← map_fst_spans a' axis (share (n - 1) (clampRatio ratio')), mem_map] at hpane
          obtain ⟨e, he, rfl⟩ := hpane
          have hwant := hholds.1 e he size hsized
          have hle := spans_le hfracA axis _ e he
          omega
        · rw [← map_fst_spans b' axis (n - 1 - share (n - 1) (clampRatio ratio')),
            mem_map] at hpane
          obtain ⟨e, he, rfl⟩ := hpane
          have hwant := hholds.2 e he size hsized
          have hle := spans_le hfracB axis _ e he
          omega
      simp only [u16SaturatingAdd, separatorSize]
      omega
    · rw [forall_mem_append] at hholds
      exact max_le (iha ha hasksA hholds.1) (ihb hb hasksB hholds.2)

end Reratioed

/-- Along an axis `n` is the least extent, from `lower` on, of the viewports that give every pane
what it asks for, or the cap when that is less. -/
structure LeastAlong (sizeOf : PaneId → Option (Nat × Nat)) (axis : Direction)
    (tree : LayoutNode ℚ) (max : Fin 65536) (lower n : Nat) : Prop where
  le_max : n ≤ max
  holds : n < max → ∀ viewport : Rect, viewport.along axis = n → tree.Holds sizeOf axis viewport
  least : ∀ viewport : Rect, lower ≤ viewport.along axis → tree.Holds sizeOf axis viewport →
    n ≤ viewport.along axis

/-- Growing from `lower` by the shortfall gives the least extent. -/
theorem leastAlong_grow (sizeOf : PaneId → Option (Nat × Nat)) (axis : Direction)
    {tree : LayoutNode ℚ} (htree : tree.Fractions) (max : Fin 65536) (lower : Nat) :
    LeastAlong sizeOf axis tree max lower
      (min (grow max (fun n => shortfall sizeOf axis (tree.spans axis n)) lower) max) := by
  obtain ⟨hend, hleast⟩ := grow_spec max
    (fun n => shortfall sizeOf axis (tree.spans axis n))
    (fun w v h hfits => add_shortfall_le htree h hfits) lower
  generalize grow max (fun n => shortfall sizeOf axis (tree.spans axis n)) lower = g at hend hleast
  refine ⟨min_le_right _ _, fun hroom viewport hat => ?_, fun viewport hlower hholds => ?_⟩
  · have hg : g < max := by omega
    rw [← shortfall_eq_zero_iff, hat, min_eq_left hg.le]
    exact hend.resolve_right (by omega)
  · exact (min_le_left _ _).trans (hleast _ hlower (shortfall_eq_zero_iff.2 hholds))

/-- When nothing that fits is less than `lower`, starting from there loses nothing. -/
theorem LeastAlong.of_sum_le {axis : Direction}
    {tree : LayoutNode ℚ} {max : Fin 65536} {lower n : Nat}
    (h : LeastAlong sizeOf axis tree max lower n)
    (hsum : ∀ m, (∀ e ∈ tree.spans axis m, ∀ size, sizeOf e.1 = some size →
      sizeAlong axis size ≤ e.2) → lower ≤ m) :
    LeastAlong sizeOf axis tree max 0 n where
  le_max := h.le_max
  holds := h.holds
  least viewport _ hholds := by
    refine h.least viewport (hsum _ ?_) hholds
    rw [← computeRects_along, forall_mem_map]
    exact hholds

theorem deficit_eq_shortfall (axis : Direction) (tree : LayoutNode ℚ) (w h : Nat) :
    tree.deficit sizeOf w h (fun rect size => sizeAlong axis size - rect.along axis) =
      shortfall sizeOf axis (tree.spans axis (Rect.along ⟨0, 0, w, h⟩ axis)) := by
  rw [deficit, shortfall, ← computeRects_along, filterMap_map]
  rfl

/-- The fitted layout has the least width and the least height, up to the cap, of the viewports
that have room for the sizes and the separators and give every pane what it asks for. When some
pane below each split asks for a cell along it, these are the least of all viewports. -/
theorem fitted_least (t : LayoutNode ℚ) (sizeOf : PaneId → Option (Nat × Nat))
    (hsized : ∀ pane ∈ t.paneIds, (sizeOf pane).isSome) (max : Fin 65536) :
    ∃ tree lower w h, t.reratioed sizeOf = some (tree, lower) ∧
      t.fitted sizeOf max = some (tree, w, h) ∧
      LeastAlong sizeOf .vertical tree max lower.1 w ∧
      LeastAlong sizeOf .horizontal tree max lower.2 h ∧
      (t.Asks sizeOf .vertical → LeastAlong sizeOf .vertical tree max 0 w) ∧
      (t.Asks sizeOf .horizontal → LeastAlong sizeOf .horizontal tree max 0 h) ∧
      (w < max → h < max → ∀ entry ∈ tree.computeRects ⟨0, 0, w, h⟩, ∀ size,
        sizeOf entry.1 = some size → size.1 ≤ entry.2.width ∧ size.2 ≤ entry.2.height) := by
  obtain ⟨⟨tree, lower⟩, hreratioed⟩ := exists_reratioed hsized
  have htree : tree.Fractions := fractions_reratioed hreratioed
  have hwidth := leastAlong_grow sizeOf .vertical htree max lower.1
  have hheight := leastAlong_grow sizeOf .horizontal htree max lower.2
  have hfitted : t.fitted sizeOf max = some (tree,
      min (grow max (fun n => shortfall sizeOf .vertical (tree.spans .vertical n)) lower.1) max,
      min (grow max (fun n => shortfall sizeOf .horizontal (tree.spans .horizontal n)) lower.2)
        max) := by
    rw [fitted, hreratioed, Option.map_some]
    exact congrArg some (congrArg₂ _ rfl (congrArg₂ _
      (congrArg (fun f => min (grow max f lower.1) max)
        (funext fun n => deficit_eq_shortfall .vertical tree n lower.2))
      (congrArg (fun f => min (grow max f lower.2) max)
        (funext fun n => deficit_eq_shortfall .horizontal tree _ n))))
  refine ⟨tree, lower, _, _, hreratioed, hfitted, hwidth, hheight, ?_, ?_, ?_⟩
  · exact fun hasks => hwidth.of_sum_le fun viewport hholds => sum_le hreratioed hasks hholds
  · exact fun hasks => hheight.of_sum_le fun viewport hholds => sum_le hreratioed hasks hholds
  · intro hw hh entry hentry size hsize
    exact ⟨hwidth.holds hw _ rfl entry hentry size hsize,
      hheight.holds hh _ rfl entry hentry size hsize⟩

end LayoutNode

namespace Sample

/-- Two panes side by side that both ask for nothing. -/
def asksNothing : PaneId → Option (Nat × Nat) := fun _ => some (0, 0)

def sideBySide : LayoutNode ℚ := .node .vertical (1 / 2) (.leaf ⟨⟨1⟩⟩) (.leaf ⟨⟨2⟩⟩)

/-- The separator is asked for even where it divides nothing. -/
theorem fitted_not_least :
    ¬ ∀ (t : LayoutNode ℚ) (sizeOf : PaneId → Option (Nat × Nat)),
      (∀ pane ∈ t.paneIds, (sizeOf pane).isSome) → ∀ max : Fin 65536,
        ∃ tree w h, t.fitted sizeOf max = some (tree, w, h) ∧
          LayoutNode.LeastAlong sizeOf .vertical tree max 0 w ∧
          LayoutNode.LeastAlong sizeOf .horizontal tree max 0 h := by
  intro hclaim
  obtain ⟨tree, w, h, hfitted, hwidth, -⟩ := hclaim sideBySide asksNothing (fun _ _ => rfl) 1000
  obtain ⟨⟨tree, lower⟩, hreratioed, hsize⟩ := Option.map_eq_some_iff.1 hfitted
  have hlower : lower = (1, 0) := (congrArg Prod.snd (Option.some.inj hreratioed)).symm
  subst hlower
  cases hsize
  have hleast := hwidth.least ⟨0, 0, 0, 0⟩ le_rfl fun entry _ size hsize => by
    cases hsize
    exact Nat.zero_le _
  exact absurd ((le_min (le_grow _ _ 1) (by decide)).trans hleast) (by decide)

/-- Three panes of the size a terminal starts at. -/
theorem fitted_least_panes : let sizeOf : PaneId → Option (Nat × Nat) := fun _ => some (80, 24)
    ∃ tree w h, panes.fitted sizeOf 1000 = some (tree, w, h) ∧
      LayoutNode.LeastAlong sizeOf .vertical tree 1000 0 w ∧
      LayoutNode.LeastAlong sizeOf .horizontal tree 1000 0 h := by
  intro sizeOf
  obtain ⟨tree, lower, w, h, -, hfitted, -, -, hwidth, hheight, -⟩ :=
    LayoutNode.fitted_least panes sizeOf (fun _ _ => rfl) 1000
  have hasks : ∀ axis, panes.Asks sizeOf axis := by
    intro axis
    have hone : 0 < LayoutNode.sizeAlong axis (80, 24) := by cases axis <;> decide
    refine ⟨fun _ => ⟨⟨⟨1⟩⟩, by decide, _, rfl, hone⟩, trivial,
      fun _ => ⟨⟨⟨2⟩⟩, by decide, _, rfl, hone⟩, trivial, trivial⟩
  exact ⟨tree, w, h, hfitted, hwidth (hasks _), hheight (hasks _)⟩

end Sample

end Shux
