/-
# Pieces of a region

Pieces are lists, and what matters about them is how many of them cover a point. Counting adds
up along appends, so a region that is cut in two is packed, or tiled, part by part; that no two
pieces overlap is read off at the end.
-/

import Mathlib.Tactic

namespace Pieces

variable {P C : Type} (covers : P → C → Bool)

/-- No point is covered twice, and none outside the region. -/
def Packs (pieces : List P) (region : C → Bool) : Prop :=
  ∀ c, pieces.countP (covers · c) ≤ (region c).toNat

/-- The points of the region are covered once, the others not at all. -/
def Tiles (pieces : List P) (region : C → Bool) : Prop :=
  ∀ c, pieces.countP (covers · c) = (region c).toNat

/-- Two pieces without a point in common. -/
def Apart (p q : P) : Prop := ∀ c, ¬ (covers p c = true ∧ covers q c = true)

variable {covers} {pieces pieces' : List P} {region : C → Bool}

theorem Tiles.packs (h : Tiles covers pieces region) : Packs covers pieces region :=
  fun c => (h c).le

theorem tiles_singleton (p : P) : Tiles covers [p] (covers p) := by
  intro c
  cases hc : covers p c <;> simp [hc]

theorem Tiles.perm (h : Tiles covers pieces region) (hperm : pieces'.Perm pieces) :
    Tiles covers pieces' region := fun c => (hperm.countP_eq _).trans (h c)

theorem Packs.mem (h : Packs covers pieces region) {p : P} (hp : p ∈ pieces) {c : C}
    (hc : covers p c = true) : region c = true := by
  have hpos : 0 < pieces.countP (covers · c) := List.countP_pos_iff.2 ⟨p, hp, hc⟩
  have hle := h c
  cases hregion : region c with
  | true => rfl
  | false =>
    rw [hregion, Bool.toNat_false] at hle
    omega

theorem Tiles.mem_iff (h : Tiles covers pieces region) (c : C) :
    region c = true ↔ ∃ p ∈ pieces, covers p c = true := by
  have hcount := h c
  have hpos := List.countP_pos_iff (p := (covers · c)) (l := pieces)
  rw [hcount] at hpos
  rw [← hpos]
  cases region c <;> simp

theorem pairwise_of_count (h : ∀ c, pieces.countP (covers · c) ≤ 1) :
    pieces.Pairwise (Apart covers) := by
  induction pieces with
  | nil => exact .nil
  | cons p rest ih =>
    have hrest : ∀ c, rest.countP (covers · c) ≤ 1 := by
      intro c
      have hc := h c
      rw [List.countP_cons] at hc
      omega
    refine .cons (fun q hq c hboth => ?_) (ih hrest)
    have hpos : 0 < rest.countP (covers · c) := List.countP_pos_iff.2 ⟨q, hq, hboth.2⟩
    have hc := h c
    rw [List.countP_cons, if_pos hboth.1] at hc
    omega

theorem Packs.pairwise (h : Packs covers pieces region) : pieces.Pairwise (Apart covers) :=
  pairwise_of_count fun c => (h c).trans (Bool.toNat_le _)

section Cut

variable {first second between : C → Bool}

/-- A region with two parts that do not overlap is packed part by part. -/
theorem Packs.append (h : Packs covers pieces first) (h' : Packs covers pieces' second)
    (hcut : ∀ c, (first c).toNat + (second c).toNat ≤ (region c).toNat) :
    Packs covers (pieces ++ pieces') region := by
  intro c
  rw [List.countP_append]
  exact (Nat.add_le_add (h c) (h' c)).trans (hcut c)

/-- A region cut in three is tiled part by part. -/
theorem Tiles.append (h : Tiles covers pieces first) {p : P} (h' : Tiles covers pieces' second)
    (hcut : ∀ c, (first c).toNat + (covers p c).toNat + (second c).toNat = (region c).toNat) :
    Tiles covers (pieces ++ p :: pieces') region := by
  intro c
  have hp : List.countP (covers · c) [p] = (covers p c).toNat := tiles_singleton p c
  rw [List.countP_append, ← List.singleton_append, List.countP_append, h c, hp, h' c, ← hcut c,
    Nat.add_assoc]

end Cut

end Pieces
