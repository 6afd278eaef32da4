/-
# Scrolling by many lines

A scroll by `n` lines is one bulk operation: a rotation by three reversals inside a
partial region, and one growth, recycling and trimming of the deque on the whole screen.
Both sides of the comparison with `n` scrolls by one line are brought to the same closed
form, which says row by row what a scroll leaves behind. For a partial region that form
holds at every count; on the whole screen it holds up to the number of rows, where the
bulk operation stops.
-/

import Shux.Vt.Evolve

namespace Shux.Vt.Grid

open Checked List

variable {g g' : Grid} {raw out : List Row} {start stop cols n : Nat}
variable {scroll : Grid → Checked Grid} {bottom top : Nat}

/-- A range of the deque rewritten to a content given place by place. -/
structure Placed (start stop : Nat) (content : Nat → Option Row) (raw out : List Row) : Prop where
  length : out.length = raw.length
  place : ∀ k, out[k]? = if start ≤ k ∧ k < stop then content k else raw[k]?

namespace Placed

variable {content content' : Nat → Option Row}

theorem inside (h : Placed start stop content raw out) {k : Nat} (hk : start ≤ k ∧ k < stop) :
    out[k]? = content k := by
  rw [h.place, if_pos hk]

theorem outside (h : Placed start stop content raw out) {k : Nat} (hk : ¬(start ≤ k ∧ k < stop)) :
    out[k]? = raw[k]? := by
  rw [h.place, if_neg hk]

theorem refl (start stop : Nat) (raw : List Row) : Placed start stop (fun k => raw[k]?) raw raw :=
  ⟨rfl, fun _ => (ite_self _).symm⟩

section

variable (h : Placed start stop content raw out)
include h

/-- Only the content inside the range counts. -/
theorem congr (heq : ∀ k, start ≤ k → k < stop → content k = content' k) :
    Placed start stop content' raw out := by
  refine ⟨h.length, fun k => ?_⟩
  rw [h.place]
  split
  · next hk => exact heq k hk.1 hk.2
  · rfl

/-- Of two rewritings of one range the later counts. -/
theorem trans {out' : List Row}
    (h' : Placed start stop content' out out') : Placed start stop content' raw out' := by
  refine ⟨h'.length.trans h.length, fun k => ?_⟩
  rw [h'.place]
  split
  · rfl
  · next hk => exact h.outside hk

/-- The content of the range determines the deque. -/
theorem unique {out' : List Row} (h' : Placed start stop content raw out') : out = out' :=
  ext_getElem? fun k => (h.place k).trans (h'.place k).symm

end

end Placed

/-- The loop mirrors what stands between its two ends. -/
theorem reverseLoop_mirrors (fuel : Nat) {i j : Nat} (hfuel : j - i ≤ fuel) (hj : j < raw.length) :
    Runs (reverseLoop fuel i j raw) (Placed i (j + 1) (fun k => raw[i + j - k]?) raw) := by
  induction fuel generalizing i j raw with
  | zero =>
    refine .pure ((Placed.refl i (j + 1) raw).congr fun k hk hk' => ?_)
    congr 1
    omega
  | succ fuel ih =>
    rw [reverseLoop]
    apply Runs.ite
    · intro hij
      apply Runs.bind (.swap_at hij hj)
      rintro raw₁ ⟨hlen, hat⟩
      apply Runs.bind (.sub (by omega))
      rintro _ rfl
      refine (ih (by omega) (by omega)).mono fun out hout => ?_
      refine ⟨hout.length.trans hlen, fun k => ?_⟩
      rw [hout.place, hat, hat]
      by_cases hin : i + 1 ≤ k ∧ k < j - 1 + 1
      · rw [if_pos hin, if_neg (by omega), if_neg (by omega), if_pos (by omega)]
        congr 1
        omega
      · rw [if_neg hin]
        -- the two ends have been exchanged
        by_cases hki : k = i
        · rw [if_pos hki, if_pos (by omega)]
          congr 1
          omega
        · rw [if_neg hki]
          by_cases hkj : k = j
          · rw [if_pos hkj, if_pos (by omega)]
            congr 1
            omega
          · rw [if_neg hkj, if_neg (by omega)]
    · intro hij
      refine .pure ((Placed.refl i (j + 1) raw).congr fun k hk hk' => ?_)
      congr 1
      omega

theorem reverseRange_mirrors (hstop : stop ≤ raw.length) : Runs (reverseRange raw start stop)
      (Placed start stop (fun k => raw[start + (stop - 1) - k]?) raw) := by
  apply Runs.ite
  · intro hempty
    exact .pure ((Placed.refl start stop raw).congr fun k hk hk' => by omega)
  · intro hlt
    apply Runs.bind (.sub (by omega))
    rintro _ rfl
    have hmirror : Runs (reverseLoop (stop - start) start (stop - 1) raw) _ :=
      reverseLoop_mirrors (stop - start) (by omega) (by omega)
    rwa [Nat.sub_add_cancel (by omega)] at hmirror

/-- Three reversals rotate: a row comes from `n` places further, and from the front of the
range when that is past its end. -/
theorem rotateRangeLeft_rotates (n : Nat) (hle : start ≤ stop) (hstop : stop ≤ raw.length) :
    Runs (rotateRangeLeft raw start stop n) (Placed start stop (fun k =>
      if k + n % (stop - start) < stop then raw[k + n % (stop - start)]?
      else raw[k + n % (stop - start) - (stop - start)]?) raw) := by
  apply Runs.bind (.sub hle)
  rintro _ rfl
  apply Runs.ite
  · intro hempty
    exact .pure ((Placed.refl start stop raw).congr fun k hk hk' => by omega)
  intro hlen
  apply Runs.ite
  · intro hturn
    refine .pure ((Placed.refl start stop raw).congr fun k hk hk' => ?_)
    rw [hturn, Nat.add_zero, if_pos hk']
  intro _
  have hturn : n % (stop - start) < stop - start := Nat.mod_lt _ (by omega)
  generalize n % (stop - start) = turn at hturn
  apply Runs.bind (reverseRange_mirrors (by omega))
  intro raw₁ h₁
  apply Runs.bind (reverseRange_mirrors (h₁.length ▸ hstop))
  intro raw₂ h₂
  refine (reverseRange_mirrors (by rw [h₂.length, h₁.length]; exact hstop)).mono fun out h₃ => ?_
  refine ⟨h₃.length.trans (h₂.length.trans h₁.length), fun k => ?_⟩
  by_cases hk : start ≤ k ∧ k < stop
  · rw [if_pos hk, h₃.inside hk]
    by_cases hfar : k + turn < stop
    · rw [if_pos hfar, h₂.inside (by omega), h₁.outside (by omega)]
      congr 1
      omega
    · rw [if_neg hfar, h₂.outside (by omega), h₁.inside (by omega)]
      congr 1
      omega
  · rw [if_neg hk, h₃.outside hk, h₂.outside (by omega), h₁.outside (by omega)]

/-- A row blanked in place is a fresh one. -/
theorem blankRow_eq (cols : Nat) (row : Row) : blankRow cols row = Row.new cols := by
  unfold blankRow
  split
  · next hlen =>
    have hcell (cell : Cell) : cell.reset .default = .empty := rfl
    rw [Row.reset, Row.new, ← hlen, Row.len]
    congr 1
    exact map_eq_replicate_iff.mpr fun cell _ => hcell cell
  · rfl

theorem blankRows_placed (hle : start ≤ stop) (hstop : stop ≤ raw.length) :
    Runs (blankRows raw cols start stop)
      (Placed start stop (fun _ => some (Row.new cols)) raw) := by
  refine .eachSpan (fun i => Placed start i (fun _ => some (Row.new cols)) raw) hle ?_ ?_
  · exact ⟨rfl, fun k => (if_neg (by omega)).symm⟩
  · intro i hi hi' out hout
    have hlen : i < out.length := by
      rw [hout.length]
      omega
    apply Runs.bind (.index hlen)
    intro row _
    apply Runs.bind (.pure rfl)
    rintro _ rfl
    refine (Runs.assign hlen).mono fun out' hout' => ?_
    subst hout'
    refine ⟨length_set.trans hout.length, fun k => ?_⟩
    rw [List.getElem?_set, blankRow_eq]
    by_cases hki : i = k
    · rw [if_pos hki, if_pos hlen, if_pos (by omega)]
    · rw [if_neg hki, hout.place]
      by_cases hk : start ≤ k ∧ k < i
      · rw [if_pos hk, if_pos (by omega)]
      · rw [if_neg hk, if_neg (by omega)]

/-- What a scroll up by `n` lines leaves in a range that ends at `stop`: every row comes
from `n` places further, and blank rows follow the last. -/
def shiftUp (cols stop n : Nat) (raw : List Row) (k : Nat) : Option Row :=
  if k + n < stop then raw[k + n]? else some (Row.new cols)

/-- What a scroll down by `n` lines leaves in a range from `start`: every row comes from
`n` places before, and blank rows precede the first. -/
def shiftDown (cols start n : Nat) (raw : List Row) (k : Nat) : Option Row :=
  if start + n ≤ k then raw[k - n]? else some (Row.new cols)

theorem shiftUp_zero (cols stop : Nat) (raw : List Row) :
    Placed start stop (shiftUp cols stop 0 raw) raw raw := by
  refine (Placed.refl start stop raw).congr fun k hk hk' => ?_
  rw [shiftUp, Nat.add_zero, if_pos hk']

theorem shiftDown_zero (cols start : Nat) (raw : List Row) :
    Placed start stop (shiftDown cols start 0 raw) raw raw := by
  refine (Placed.refl start stop raw).congr fun k hk hk' => ?_
  rw [shiftDown, Nat.add_zero, if_pos hk, Nat.sub_zero]

theorem shiftUp_succ {out' : List Row} (h : Placed start stop (shiftUp cols stop n raw) raw out)
    (h' : Placed start stop (shiftUp cols stop 1 out) out out') :
    Placed start stop (shiftUp cols stop (n + 1) raw) raw out' := by
  refine (h.trans h').congr fun k hk hk' => ?_
  rw [shiftUp, shiftUp]
  by_cases hnext : k + 1 < stop
  · rw [if_pos hnext, h.inside ⟨by omega, hnext⟩, shiftUp, Nat.add_assoc, Nat.add_comm 1]
  · rw [if_neg hnext, if_neg (by omega)]

theorem shiftDown_succ {out' : List Row}
    (h : Placed start stop (shiftDown cols start n raw) raw out)
    (h' : Placed start stop (shiftDown cols start 1 out) out out') :
    Placed start stop (shiftDown cols start (n + 1) raw) raw out' := by
  refine (h.trans h').congr fun k hk hk' => ?_
  rw [shiftDown, shiftDown]
  by_cases hprev : start + 1 ≤ k
  · rw [if_pos hprev, h.inside ⟨by omega, by omega⟩, shiftDown, Nat.sub_sub, Nat.add_comm 1]
    by_cases hfar : start + n ≤ k - 1
    · rw [if_pos hfar, if_pos (by omega)]
    · rw [if_neg hfar, if_neg (by omega)]
  · rw [if_neg hprev, if_neg (by omega)]

/-- Scrolling further than the height of the range only shuffles blank rows. -/
theorem shiftUp_clamp
    (h : Placed start stop (shiftUp cols stop (min n (stop - start)) raw) raw out) :
    Placed start stop (shiftUp cols stop n raw) raw out := by
  refine h.congr fun k hk hk' => ?_
  by_cases hn : n ≤ stop - start
  · rw [min_eq_left hn]
  · rw [shiftUp, shiftUp, if_neg (by omega), if_neg (by omega)]

theorem shiftDown_clamp
    (h : Placed start stop (shiftDown cols start (min n (stop - start)) raw) raw out) :
    Placed start stop (shiftDown cols start n raw) raw out := by
  refine h.congr fun k hk hk' => ?_
  by_cases hn : n ≤ stop - start
  · rw [min_eq_left hn]
  · rw [shiftDown, shiftDown, if_neg (by omega), if_neg (by omega)]

/-- What a scroll leaves alone beside the rows and the eviction count. -/
structure SameFrame (g g' : Grid) : Prop where
  rows : g'.rows = g.rows
  cols : g'.cols = g.cols
  config : g'.config = g.config
  placements : g'.placements = g.placements

theorem SameFrame.refl (g : Grid) : SameFrame g g := ⟨rfl, rfl, rfl, rfl⟩

theorem SameFrame.trans {g'' : Grid} (h : SameFrame g g') (h' : SameFrame g' g'') :
    SameFrame g g'' :=
  ⟨h'.rows.trans h.rows, h'.cols.trans h.cols, h'.config.trans h.config,
    h'.placements.trans h.placements⟩

theorem SameFrame.clampRegion (h : SameFrame g g') (top bottom : Nat) :
    g'.clampRegion top bottom = g.clampRegion top bottom := by
  unfold Grid.clampRegion
  rw [h.rows]

/-- Marking the rows of a scroll changes nothing but the marks. -/
theorem markScrolled_same (h : g.Ok) {mutations : Nat} (top bottom : Nat) :
    Runs (markScrolled { g with raw, mutations } top bottom) fun g' =>
      g'.raw = raw ∧ g'.evicted = g.evicted ∧ SameFrame g g' := by
  apply Runs.ite
  · exact fun _ => .pure ⟨rfl, rfl, rfl, rfl, rfl, rfl⟩
  · intro _
    apply Runs.bind (h.dirty.markRows top (bottom + 1))
    rintro dirty -
    exact .pure ⟨rfl, rfl, rfl, rfl, rfl, rfl⟩

/-- A scroll up inside a region that is not the whole screen. -/
theorem Ok.scrollUpN_placed (h : g.Ok) {top' bottom' : Nat}
    (hregion : g.clampRegion top bottom = some (top', bottom'))
    (hpart : ¬(top' = 0 ∧ bottom' = g.rows - 1)) (n : Nat) :
    Runs (g.scrollUpN top bottom n) fun g' =>
      Placed (g.scrollbackLen + top') (g.scrollbackLen + bottom' + 1)
        (shiftUp g.cols (g.scrollbackLen + bottom' + 1) n g.raw) g.raw g'.raw ∧
      g'.evicted = g.evicted ∧ SameFrame g g' := by
  obtain ⟨hle, hlt, hstart, hstop⟩ := h.region_fits hregion
  unfold Grid.scrollUpN
  rw [hregion]
  apply Runs.bind (.sub hle)
  rintro _ rfl
  apply Runs.ite
  · intro hn
    have hzero : n = 0 := by omega
    subst hzero
    exact .pure ⟨shiftUp_zero g.cols _ g.raw, rfl, .refl g⟩
  intro hn
  have hrows : 1 ≤ g.rows := by omega
  apply Runs.bind (.sub hrows)
  rintro _ rfl
  refine .ite (fun hfull => absurd hfull hpart) fun _ => ?_
  have hheight : g.scrollbackLen + bottom' + 1 - (g.scrollbackLen + top') = bottom' - top' + 1 := by
    omega
  apply Runs.bind (rotateRangeLeft_rotates _ hstart hstop)
  intro raw₁ h₁
  have hfirst : min n (bottom' - top' + 1) ≤ g.scrollbackLen + bottom' + 1 := by omega
  apply Runs.bind (.sub hfirst)
  rintro _ rfl
  have hblank : Runs (blankRows raw₁ g.cols
      (g.scrollbackLen + bottom' + 1 - min n (bottom' - top' + 1)) (g.scrollbackLen + bottom' + 1))
      _ := blankRows_placed (Nat.sub_le _ _) (h₁.length ▸ hstop)
  apply Runs.bind hblank
  intro raw₂ h₂
  refine (markScrolled_same h top' bottom').mono ?_
  rintro g' ⟨rfl, hevicted, hframe⟩
  refine ⟨shiftUp_clamp ⟨h₂.length.trans h₁.length, fun k => ?_⟩, hevicted, hframe⟩
  rw [hheight]
  by_cases hk : g.scrollbackLen + top' ≤ k ∧ k < g.scrollbackLen + bottom' + 1
  · rw [if_pos hk, shiftUp]
    by_cases hkeep : k + min n (bottom' - top' + 1) < g.scrollbackLen + bottom' + 1
    · -- a row that is kept implies that the turn is less than a whole one
      have hturn : min n (bottom' - top' + 1) % (bottom' - top' + 1) =
          min n (bottom' - top' + 1) := Nat.mod_eq_of_lt (by omega)
      rw [if_pos hkeep, h₂.outside (by omega), h₁.inside hk, hheight, hturn, if_pos hkeep]
    · rw [if_neg hkeep, h₂.inside (by omega)]
  · rw [if_neg hk, h₂.outside (by omega), h₁.outside hk]

theorem Ok.scrollDownN_placed (h : g.Ok) {top' bottom' : Nat}
    (hregion : g.clampRegion top bottom = some (top', bottom')) (n : Nat) :
    Runs (g.scrollDownN top bottom n) fun g' =>
      Placed (g.scrollbackLen + top') (g.scrollbackLen + bottom' + 1)
        (shiftDown g.cols (g.scrollbackLen + top') n g.raw) g.raw g'.raw ∧
      g'.evicted = g.evicted ∧ SameFrame g g' := by
  obtain ⟨hle, hlt, hstart, hstop⟩ := h.region_fits hregion
  unfold Grid.scrollDownN
  rw [hregion]
  apply Runs.bind (.sub hle)
  rintro _ rfl
  apply Runs.ite
  · intro hn
    have hzero : n = 0 := by omega
    subst hzero
    exact .pure ⟨shiftDown_zero g.cols _ g.raw, rfl, .refl g⟩
  intro hn
  apply Runs.bind (.sub (min_le_right _ _))
  rintro _ rfl
  have hheight : g.scrollbackLen + bottom' + 1 - (g.scrollbackLen + top') = bottom' - top' + 1 := by
    omega
  apply Runs.bind (rotateRangeLeft_rotates _ hstart hstop)
  intro raw₁ h₁
  have hblank : Runs (blankRows raw₁ g.cols (g.scrollbackLen + top')
      (g.scrollbackLen + top' + min n (bottom' - top' + 1))) _ :=
    blankRows_placed (Nat.le_add_right _ _) (by rw [h₁.length]; omega)
  apply Runs.bind hblank
  intro raw₂ h₂
  refine (markScrolled_same h top' bottom').mono ?_
  rintro g' ⟨rfl, hevicted, hframe⟩
  refine ⟨shiftDown_clamp ⟨h₂.length.trans h₁.length, fun k => ?_⟩, hevicted, hframe⟩
  rw [hheight]
  by_cases hk : g.scrollbackLen + top' ≤ k ∧ k < g.scrollbackLen + bottom' + 1
  · rw [if_pos hk, shiftDown]
    by_cases hkeep : g.scrollbackLen + top' + min n (bottom' - top' + 1) ≤ k
    · have hturn : (bottom' - top' + 1 - min n (bottom' - top' + 1)) % (bottom' - top' + 1) =
          bottom' - top' + 1 - min n (bottom' - top' + 1) := Nat.mod_eq_of_lt (by omega)
      rw [if_pos hkeep, h₂.outside (by omega), h₁.inside hk, hheight, hturn, if_neg (by omega)]
      congr 1
      omega
    · rw [if_neg hkeep, h₂.inside (by omega)]
  · rw [if_neg hk, h₂.outside (by omega), h₁.outside hk]

/-- The lines a scroll of the whole screen by `n` lines loses off the front. -/
def lost (g : Grid) (n : Nat) : Nat :=
  if n = 0 then 0 else g.raw.length + n - (g.rows + g.config.maxScrollback)

/-- What a scroll of the whole screen by `n` lines leaves behind: `n` blank rows follow the
last, and the deque is cut back to its cap from the front. -/
structure Advanced (g : Grid) (n : Nat) (g' : Grid) : Prop where
  raw : g'.raw = (g.raw ++ List.replicate n (Row.new g.cols)).drop (g.lost n)
  evicted : g'.evicted = g.evicted + g.lost n
  frame : SameFrame g g'

theorem recycle_eq (hn : n ≤ raw.length) :
    recycle cols n raw = (raw.drop n ++ List.replicate n (Row.new cols), n) := by
  induction n generalizing raw with
  | zero => rw [recycle, drop_zero, replicate_zero, append_nil]
  | succ n ih =>
    cases raw with
    | nil => exact absurd hn (Nat.not_succ_le_zero n)
    | cons row raw =>
      rw [length_cons] at hn
      have hle : n ≤ raw.length := by omega
      have hlen : n ≤ (raw ++ [blankRow cols row]).length := by
        rw [length_append]
        omega
      rw [recycle, ih hlen, drop_append_of_le_length hle, blankRow_eq, drop_succ_cons,
        append_assoc, singleton_append, replicate_succ]

theorem Ok.scrollScreenUp_advanced (h : g.Ok) (hn : n ≠ 0) (hle : n ≤ g.rows) :
    Runs (g.scrollScreenUp n) (Advanced g n) := by
  have hrows := h.rows_le
  unfold Grid.scrollScreenUp
  dsimp only
  generalize hgrow : min n (g.rows + g.config.maxScrollback - g.raw.length) = grow
  apply Runs.bind (.sub (by omega))
  rintro _ rfl
  have hrest : n - grow ≤ (g.raw ++ List.replicate grow (Row.new g.cols)).length := by
    rw [length_append]
    omega
  rw [recycle_eq hrest]
  have hblank : g.raw ++ List.replicate n (Row.new g.cols) =
      g.raw ++ List.replicate grow (Row.new g.cols) ++
        List.replicate (n - grow) (Row.new g.cols) := by
    rw [append_assoc, replicate_append_replicate, show grow + (n - grow) = n by omega]
  have hlost : g.lost n = n - grow + (g.raw.length + grow - (g.rows + g.config.maxScrollback)) := by
    rw [lost, if_neg hn]
    omega
  have hlen : ((g.raw ++ List.replicate grow (Row.new g.cols)).drop (n - grow) ++
      List.replicate (n - grow) (Row.new g.cols)).length = g.raw.length + grow := by
    simp only [length_append, length_drop, length_replicate] at hrest ⊢
    omega
  refine .pure ⟨?_, ?_, rfl, rfl, rfl, rfl⟩
  · show List.drop _ (_ ++ _) = _
    rw [hlen, hblank, hlost, ← drop_drop, drop_append_of_le_length hrest]
  · show g.evicted + (n - grow) + _ = _
    rw [hlen, hlost]
    omega

theorem Ok.scrollUpN_advanced (h : g.Ok)
    (hregion : g.clampRegion top bottom = some (0, g.rows - 1)) (hle : n ≤ g.rows) :
    Runs (g.scrollUpN top bottom n) (Advanced g n) := by
  obtain ⟨-, hlt⟩ := clampRegion_some hregion
  unfold Grid.scrollUpN
  rw [hregion]
  apply Runs.bind (.sub (Nat.zero_le _))
  rintro _ rfl
  rw [Nat.sub_zero, Nat.sub_add_cancel (by omega), min_eq_left hle]
  apply Runs.ite
  · intro hzero
    subst hzero
    refine .pure ⟨?_, rfl, .refl g⟩
    rw [replicate_zero, append_nil]
    exact drop_zero.symm
  intro hn
  have hrows : 1 ≤ g.rows := by omega
  apply Runs.bind (.sub hrows)
  rintro _ rfl
  refine .ite (fun _ => ?_) fun hpart => absurd ⟨rfl, rfl⟩ hpart
  have hok : Ok { g with mutations := g.mutations + n } := ⟨h.rows_le, h.sound, h.dirty, h.enabled⟩
  apply Runs.bind (hok.scrollScreenUp_advanced hn hle)
  intro g' hg'
  have hsame : g'.rows = g.rows := hg'.frame.rows
  rw [Grid.markScrolled, if_pos ⟨rfl, by rw [hsame]⟩]
  exact .pure ⟨hg'.raw, hg'.evicted, hg'.frame.rows, hg'.frame.cols, hg'.frame.config,
    hg'.frame.placements⟩

/-- One more line after `n` is `n + 1` lines: what is lost first can be lost at once. -/
theorem Advanced.succ {g'' : Grid} (h : Advanced g n g') (h' : Advanced g' 1 g'') :
    Advanced g (n + 1) g'' := by
  have hlen : g'.raw.length = g.raw.length + n - g.lost n := by
    rw [h.raw, length_drop, length_append, length_replicate]
  have hlost : g.lost n ≤ g.raw.length + n := by
    unfold lost
    split <;> omega
  have htotal : g.lost (n + 1) = g.lost n + g'.lost 1 := by
    have hone : g'.lost 1 = g'.raw.length + 1 - (g.rows + g.config.maxScrollback) := by
      rw [lost, if_neg one_ne_zero, h.frame.rows, h.frame.config]
    rw [hone, hlen, lost, if_neg (Nat.succ_ne_zero n)]
    unfold lost
    split <;> omega
  refine ⟨?_, ?_, h.frame.trans h'.frame⟩
  · have hfit : g.lost n ≤ (g.raw ++ List.replicate n (Row.new g.cols)).length := by
      rw [length_append, length_replicate]
      exact hlost
    rw [h'.raw, h.raw, h.frame.cols, htotal, ← drop_drop, replicate_add,
      ← append_assoc, drop_append_of_le_length hfit]
  · rw [h'.evicted, h.evicted, htotal, Nat.add_assoc]

/-- A scroll by one line, some number of times. -/
def repeatScroll (scroll : Grid → Checked Grid) (n : Nat) (g : Grid) : Checked Grid :=
  each (span 0 n) g fun g _ => scroll g

theorem runs_repeatScroll (I : Nat → Grid → Prop) (hzero : I 0 g)
    (hstep : ∀ i g', I i g' → Runs (scroll g') (I (i + 1))) (n : Nat) :
    Runs (repeatScroll scroll n g) (I n) :=
  Runs.eachSpan I (Nat.zero_le n) hzero fun i _ _ g' hg' => hstep i g' hg'

theorem SameFrame.scrollbackLen (h : SameFrame g g') (hlen : g'.raw.length = g.raw.length) :
    g'.scrollbackLen = g.scrollbackLen := by
  rw [Grid.scrollbackLen, Grid.scrollbackLen, hlen, h.rows]

theorem Ok.repeat_scrollUp_placed (h : g.Ok) {top' bottom' : Nat}
    (hregion : g.clampRegion top bottom = some (top', bottom'))
    (hpart : ¬(top' = 0 ∧ bottom' = g.rows - 1)) (n : Nat) :
    Runs (repeatScroll (fun g => g.scrollUp top bottom) n g) fun g' => g'.Ok ∧
      Placed (g.scrollbackLen + top') (g.scrollbackLen + bottom' + 1)
        (shiftUp g.cols (g.scrollbackLen + bottom' + 1) n g.raw) g.raw g'.raw ∧
      g'.evicted = g.evicted ∧ SameFrame g g' := by
  refine runs_repeatScroll (fun i g' => g'.Ok ∧
    Placed (g.scrollbackLen + top') (g.scrollbackLen + bottom' + 1)
      (shiftUp g.cols (g.scrollbackLen + bottom' + 1) i g.raw) g.raw g'.raw ∧
    g'.evicted = g.evicted ∧ SameFrame g g')
    ⟨h, shiftUp_zero g.cols _ g.raw, rfl, .refl g⟩ ?_ n
  rintro i g' ⟨hok, hplaced, hevicted, hframe⟩
  have hregion' := (hframe.clampRegion top bottom).trans hregion
  refine ((hok.scrollUpN top bottom 1).and
    (hok.scrollUpN_placed hregion' (by rwa [hframe.rows]) 1)).mono ?_
  rintro g'' ⟨hevolves, hplaced', hevicted', hframe'⟩
  rw [hframe.scrollbackLen hplaced.length, hframe.cols] at hplaced'
  exact ⟨hevolves.ok, shiftUp_succ hplaced hplaced', hevicted'.trans hevicted, hframe.trans hframe'⟩

theorem Ok.repeat_scrollDown_placed (h : g.Ok) {top' bottom' : Nat}
    (hregion : g.clampRegion top bottom = some (top', bottom')) (n : Nat) :
    Runs (repeatScroll (fun g => g.scrollDown top bottom) n g) fun g' => g'.Ok ∧
      Placed (g.scrollbackLen + top') (g.scrollbackLen + bottom' + 1)
        (shiftDown g.cols (g.scrollbackLen + top') n g.raw) g.raw g'.raw ∧
      g'.evicted = g.evicted ∧ SameFrame g g' := by
  refine runs_repeatScroll (fun i g' => g'.Ok ∧
    Placed (g.scrollbackLen + top') (g.scrollbackLen + bottom' + 1)
      (shiftDown g.cols (g.scrollbackLen + top') i g.raw) g.raw g'.raw ∧
    g'.evicted = g.evicted ∧ SameFrame g g')
    ⟨h, shiftDown_zero g.cols _ g.raw, rfl, .refl g⟩ ?_ n
  rintro i g' ⟨hok, hplaced, hevicted, hframe⟩
  have hregion' := (hframe.clampRegion top bottom).trans hregion
  refine ((hok.scrollDownN top bottom 1).and (hok.scrollDownN_placed hregion' 1)).mono ?_
  rintro g'' ⟨hevolves, hplaced', hevicted', hframe'⟩
  rw [hframe.scrollbackLen hplaced.length, hframe.cols] at hplaced'
  exact ⟨hevolves.ok, shiftDown_succ hplaced hplaced', hevicted'.trans hevicted,
    hframe.trans hframe'⟩

theorem Ok.repeat_scrollUp_advanced (h : g.Ok)
    (hregion : g.clampRegion top bottom = some (0, g.rows - 1)) (n : Nat) :
    Runs (repeatScroll (fun g => g.scrollUp top bottom) n g) fun g' => g'.Ok ∧ Advanced g n g' := by
  have hstart : Advanced g 0 g := by
    refine ⟨?_, rfl, .refl g⟩
    rw [replicate_zero, append_nil]
    exact drop_zero.symm
  refine runs_repeatScroll (fun i g' => g'.Ok ∧ Advanced g i g') ⟨h, hstart⟩ ?_ n
  rintro i g' ⟨hok, hadv⟩
  obtain ⟨-, hlt⟩ := clampRegion_some hregion
  have hregion' : g'.clampRegion top bottom = some (0, g'.rows - 1) := by
    rw [hadv.frame.clampRegion, hregion, hadv.frame.rows]
  have hone : 1 ≤ g'.rows := by
    rw [hadv.frame.rows]
    omega
  refine ((hok.scrollUpN top bottom 1).and (hok.scrollUpN_advanced hregion' hone)).mono ?_
  rintro g'' ⟨hevolves, hadv'⟩
  exact ⟨hevolves.ok, hadv.succ hadv'⟩

/-- The two grids hold the same lines: every row with its cells and its wrap flag, in the
history and on the screen, at the same absolute index. -/
structure SameLines (g g' : Grid) : Prop where
  raw : g'.raw = g.raw
  evicted : g'.evicted = g.evicted
  frame : SameFrame g g'

theorem SameFrame.symm (h : SameFrame g g') : SameFrame g' g :=
  ⟨h.rows.symm, h.cols.symm, h.config.symm, h.placements.symm⟩

/-- The line of an absolute index, which counts the lines evicted before it. -/
def lineAt (g : Grid) (abs : Nat) : Option Row :=
  if g.evicted ≤ abs then g.row (abs - g.evicted) else none

/-- Every line that has not been evicted keeps its absolute index. -/
def KeepsLines (g g' : Grid) : Prop :=
  g.evicted ≤ g'.evicted ∧ ∀ abs, g'.evicted ≤ abs → abs < g.evicted + g.totalLines →
    g'.lineAt abs = g.lineAt abs

theorem Advanced.keepsLines (h : Advanced g n g') : KeepsLines g g' := by
  have hevicted := h.evicted
  refine ⟨by omega, fun abs hold hnew => ?_⟩
  rw [totalLines] at hnew
  rw [lineAt, if_pos hold, lineAt, if_pos (by omega), row, row, h.raw, List.getElem?_drop,
    List.getElem?_append_left (by omega)]
  congr 1
  omega

/-- The region is the whole screen. -/
def isFullScreen (g : Grid) (top bottom : Nat) : Prop :=
  g.clampRegion top bottom = some (0, g.rows - 1)

/-- A scroll outside the screen does nothing, however often. -/
theorem repeatScroll_noop (hnoop : scroll g = some g) (n : Nat) :
    Runs (repeatScroll scroll n g) fun g' => g' = g := by
  refine runs_repeatScroll (fun _ g' => g' = g) rfl ?_ n
  rintro _ g' rfl
  exact ⟨g', hnoop, rfl⟩

theorem Ok.scrollUpN_repeat (h : g.Ok) (hpart : ¬g.isFullScreen top bottom) (n : Nat) :
    Both (g.scrollUpN top bottom n) (repeatScroll (fun g => g.scrollUp top bottom) n g)
      SameLines := by
  cases hregion : g.clampRegion top bottom with
  | none =>
    have hnoop (m : Nat) : g.scrollUpN top bottom m = some g := by
      unfold Grid.scrollUpN
      rw [hregion]
      rfl
    have hrepeat : Runs (repeatScroll (fun g => g.scrollUp top bottom) n g) fun g' => g' = g :=
      repeatScroll_noop (hnoop 1) n
    obtain ⟨_, hrun, rfl⟩ := hrepeat
    exact ⟨_, _, hnoop n, hrun, rfl, rfl, .refl _⟩
  | some region =>
    obtain ⟨top', bottom'⟩ := region
    have hpart' : ¬(top' = 0 ∧ bottom' = g.rows - 1) := by
      rintro ⟨rfl, rfl⟩
      exact hpart hregion
    obtain ⟨g₁, hrun₁, hplaced₁, hevicted₁, hframe₁⟩ := h.scrollUpN_placed hregion hpart' n
    obtain ⟨g₂, hrun₂, -, hplaced₂, hevicted₂, hframe₂⟩ := h.repeat_scrollUp_placed hregion hpart' n
    exact ⟨g₁, g₂, hrun₁, hrun₂, hplaced₂.unique hplaced₁, hevicted₂.trans hevicted₁.symm,
      hframe₁.symm.trans hframe₂⟩

theorem Ok.scrollDownN_repeat (h : g.Ok) (top bottom n : Nat) :
    Both (g.scrollDownN top bottom n) (repeatScroll (fun g => g.scrollDown top bottom) n g)
      SameLines := by
  cases hregion : g.clampRegion top bottom with
  | none =>
    have hnoop (m : Nat) : g.scrollDownN top bottom m = some g := by
      unfold Grid.scrollDownN
      rw [hregion]
      rfl
    have hrepeat : Runs (repeatScroll (fun g => g.scrollDown top bottom) n g) fun g' => g' = g :=
      repeatScroll_noop (hnoop 1) n
    obtain ⟨_, hrun, rfl⟩ := hrepeat
    exact ⟨_, _, hnoop n, hrun, rfl, rfl, .refl _⟩
  | some region =>
    obtain ⟨top', bottom'⟩ := region
    obtain ⟨g₁, hrun₁, hplaced₁, hevicted₁, hframe₁⟩ := h.scrollDownN_placed hregion n
    obtain ⟨g₂, hrun₂, -, hplaced₂, hevicted₂, hframe₂⟩ := h.repeat_scrollDown_placed hregion n
    exact ⟨g₁, g₂, hrun₁, hrun₂, hplaced₂.unique hplaced₁, hevicted₂.trans hevicted₁.symm,
      hframe₁.symm.trans hframe₂⟩

theorem Ok.scrollUpN_repeat_screen (h : g.Ok) (hfull : g.isFullScreen top bottom)
    (hle : n ≤ g.rows) :
    Both (g.scrollUpN top bottom n) (repeatScroll (fun g => g.scrollUp top bottom) n g)
      fun g₁ g₂ => SameLines g₁ g₂ ∧ KeepsLines g g₁ := by
  obtain ⟨g₁, hrun₁, hadv₁⟩ := h.scrollUpN_advanced hfull hle
  obtain ⟨g₂, hrun₂, -, hadv₂⟩ := h.repeat_scrollUp_advanced hfull n
  exact ⟨g₁, g₂, hrun₁, hrun₂, ⟨hadv₂.raw.trans hadv₁.raw.symm,
    hadv₂.evicted.trans hadv₁.evicted.symm, hadv₁.frame.symm.trans hadv₂.frame⟩, hadv₁.keepsLines⟩

/-- A bulk scroll leaves the lines that as many scrolls by one line leave: over a part of
the screen at every count, and over the whole screen up to the number of rows, where the
scrollback and the eviction count agree too and every surviving line keeps its absolute
index. -/
theorem Ok.scrolls_repeat (h : g.Ok) (top bottom n : Nat) : (¬g.isFullScreen top bottom →
      Both (g.scrollUpN top bottom n) (repeatScroll (fun g => g.scrollUp top bottom) n g)
        SameLines) ∧
    Both (g.scrollDownN top bottom n) (repeatScroll (fun g => g.scrollDown top bottom) n g)
      SameLines ∧
    (g.isFullScreen top bottom → n ≤ g.rows →
      Both (g.scrollUpN top bottom n) (repeatScroll (fun g => g.scrollUp top bottom) n g)
        fun g₁ g₂ => SameLines g₁ g₂ ∧ KeepsLines g g₁) :=
  ⟨fun hpart => h.scrollUpN_repeat hpart n, h.scrollDownN_repeat top bottom n,
    fun hfull hle => h.scrollUpN_repeat_screen hfull hle⟩

namespace Sample

def letters (text : List Char) : Row := ⟨text.map fun ch => ⟨ch, 1, .default, none⟩, false⟩

/-- Three lines of one letter on the screen, and room for one more above it. -/
def three : Grid :=
  { Grid.new 3 1 ⟨1, true⟩ with raw := [letters ['a'], letters ['b'], letters ['c']] }

theorem ok_three : three.Ok where
  rows_le := le_rfl
  sound row hrow := by
    have hall : ∀ row ∈ three.raw, row.len = 1 ∧ ∀ cell ∈ row.cells, cell.width = 1 := by decide
    obtain ⟨hlen, hwidth⟩ := hall row hrow
    exact ⟨hlen, Row.paired_of_single hwidth⟩
  dirty := DirtyState.fits_new 3 1 true
  enabled := rfl

/-- Two lines of a part of the screen, and two lines of the whole, where one goes for good. -/
theorem scrolls_repeat_three :
    Both (three.scrollUpN 0 1 2) (repeatScroll (fun g => g.scrollUp 0 1) 2 three) SameLines ∧
    Both (three.scrollUpN 0 2 2) (repeatScroll (fun g => g.scrollUp 0 2) 2 three)
      (fun g₁ g₂ => SameLines g₁ g₂ ∧ KeepsLines three g₁) ∧
    (three.scrollUpN 0 2 2).map (fun g => (g.evicted, g.raw.map fun row => row.cells.map (·.ch))) =
      some (1, [['b'], ['c'], [' '], [' ']]) :=
  ⟨(Ok.scrolls_repeat ok_three 0 1 2).1 (by unfold isFullScreen; decide),
    (Ok.scrolls_repeat ok_three 0 2 2).2.2 rfl (by decide), by decide⟩

end Sample

end Shux.Vt.Grid
