/-
# Steps that commute across keys

A list of keyed items is regrouped when items with the same key keep their order. Steps whose
items have different keys commute, so a fold over the items comes to the same whichever way
they are regrouped. A step may refuse an item, whatever the state: then the fold is refused
too, by one item or by another.
-/

import Mathlib.Tactic

namespace Keyed

open List

variable {α κ σ ε : Type} [DecidableEq κ]

/-- The same items, and those of each key in the same order. -/
structure Regrouped (key : α → Option κ) (xs ys : List α) : Prop where
  perm : xs.Perm ys
  order : ∀ k, xs.filter (fun a => decide (key a = some k)) =
    ys.filter fun a => decide (key a = some k)

variable {key : α → Option κ} {xs ys : List α}

/-- Items without a common key. -/
def Apart (key : α → Option κ) (a b : α) : Prop := key a = none ∨ key a ≠ key b

/-- Two items without a common key may change places. -/
theorem Regrouped.swap {a b : α} (h : Apart key a b) : Regrouped key [a, b] [b, a] := by
  refine ⟨List.Perm.swap b a [], fun k => ?_⟩
  by_cases ha : key a = some k
  · have hb : key b ≠ some k := by
      rcases h with hnone | hne
      · rw [hnone] at ha
        cases ha
      · exact fun hb => hne (ha.trans hb.symm)
    simp only [filter_cons, ha, hb]
    rfl
  · simp only [filter_cons, ha]
    rfl

/-- The first item of a list stands in the other one behind items with other keys. -/
theorem Regrouped.split {x : α} (h : Regrouped key (x :: xs) ys) :
    ∃ front back, ys = front ++ x :: back ∧ (∀ b ∈ front, Apart key x b) ∧
      Regrouped key xs (front ++ back) := by
  have hback : ∀ front back, ys = front ++ x :: back → (∀ b ∈ front, Apart key x b) →
      Regrouped key xs (front ++ back) := by
    rintro front back rfl hfront
    refine ⟨(perm_cons x).mp (h.perm.trans perm_middle), fun k => ?_⟩
    have horder := h.order k
    rw [filter_append] at horder ⊢
    by_cases hk : key x = some k
    · have hnone : front.filter (fun a => decide (key a = some k)) = [] := by
        refine filter_eq_nil_iff.mpr fun b hb hbk => ?_
        have hsame := of_decide_eq_true hbk
        rcases hfront b hb with hnil | hne
        · rw [hk] at hnil
          cases hnil
        · exact hne (hk.trans hsame.symm)
      rw [hnone, nil_append] at horder ⊢
      simp only [filter_cons, hk, decide_true, if_true] at horder
      exact (List.cons.inj horder).2
    · rw [filter_cons_of_neg (by simpa using hk), filter_cons_of_neg (by simpa using hk)] at horder
      exact horder
  cases hx : key x with
  | none =>
    obtain ⟨front, back, heq⟩ := append_of_mem (h.perm.subset mem_cons_self)
    exact ⟨front, back, heq, fun _ _ => .inl hx, hback front back heq fun _ _ => .inl hx⟩
  | some k =>
    have horder := h.order k
    simp only [filter_cons, hx, decide_true, if_true] at horder
    obtain ⟨front, back, heq, hfront, -, -⟩ := filter_eq_cons_iff.mp horder.symm
    have hapart : ∀ b ∈ front, Apart key x b := fun b hb =>
      .inr fun hsame => hfront b hb (decide_eq_true (hsame.symm.trans hx))
    exact ⟨front, back, heq, hapart, hback front back heq hapart⟩

/-- An item that commutes with those before it may come first. -/
theorem foldl_middle {f : σ → α → σ} (x : α) (front back : List α)
    (hcomm : ∀ b ∈ front, ∀ s, f (f s b) x = f (f s x) b) (s : σ) :
    (front ++ x :: back).foldl f s = (front ++ back).foldl f (f s x) := by
  induction front generalizing s with
  | nil => rfl
  | cons b front ih =>
    rw [cons_append, cons_append, foldl_cons, foldl_cons,
      ih fun b' hb' => hcomm b' (mem_cons_of_mem _ hb'), hcomm b mem_cons_self]

theorem Regrouped.foldl_eq {f : σ → α → σ} (h : Regrouped key xs ys)
    (hcomm : ∀ a b, Apart key a b → ∀ s, f (f s b) a = f (f s a) b) (s : σ) :
    xs.foldl f s = ys.foldl f s := by
  induction xs generalizing ys s with
  | nil => rw [nil_perm.mp h.perm]
  | cons x xs ih =>
    obtain ⟨front, back, rfl, hfront, hrest⟩ := h.split
    rw [foldl_middle x front back fun b hb => hcomm x b (hfront b hb), foldl_cons]
    exact ih hrest (f s x)

/-- What an item does, if it is not refused. -/
structure Stepwise (step : σ → α → Except ε σ) (f : σ → α → σ) (ok : α → Prop) : Prop where
  accept : ∀ s a, ok a → step s a = .ok (f s a)
  refuse : ∀ s a, ¬ ok a → ∃ r, step s a = .error r

variable {step : σ → α → Except ε σ} {f : σ → α → σ} {ok : α → Prop}

theorem Stepwise.foldlM_ok (h : Stepwise step f ok) (hok : ∀ a ∈ xs, ok a) (s : σ) :
    xs.foldlM step s = .ok (xs.foldl f s) := by
  induction xs generalizing s with
  | nil => rfl
  | cons x xs ih =>
    rw [foldlM_cons, h.accept s x (hok x mem_cons_self), foldl_cons]
    exact ih (fun a ha => hok a (mem_cons_of_mem _ ha)) (f s x)

theorem Stepwise.foldlM_error (h : Stepwise step f ok) {a : α} (ha : a ∈ xs) (hbad : ¬ ok a)
    (s : σ) : ∃ r, xs.foldlM step s = .error r := by
  induction xs generalizing s with
  | nil => cases ha
  | cons x xs ih =>
    rw [foldlM_cons]
    by_cases hx : ok x
    · rw [h.accept s x hx]
      rcases mem_cons.mp ha with rfl | hrest
      · exact absurd hx hbad
      · exact ih hrest (f s x)
    · obtain ⟨r, hr⟩ := h.refuse s x hx
      rw [hr]
      exact ⟨r, rfl⟩

/-- Regrouped items are refused together, or come to the same. -/
theorem Stepwise.foldlM_regrouped (h : Stepwise step f ok) (hxs : Regrouped key xs ys)
    (hcomm : ∀ a b, Apart key a b → ∀ s, f (f s b) a = f (f s a) b) (s : σ) :
    (∃ r r', xs.foldlM step s = .error r ∧ ys.foldlM step s = .error r') ∨
      ∃ s', xs.foldlM step s = .ok s' ∧ ys.foldlM step s = .ok s' := by
  by_cases hok : ∀ a ∈ xs, ok a
  · have hok' : ∀ a ∈ ys, ok a := fun a ha => hok a (hxs.perm.mem_iff.mpr ha)
    refine .inr ⟨xs.foldl f s, h.foldlM_ok hok s, ?_⟩
    rw [h.foldlM_ok hok' s, hxs.foldl_eq hcomm s]
  · rw [not_forall] at hok
    obtain ⟨a, hbad⟩ := hok
    rw [Classical.not_imp] at hbad
    obtain ⟨r, hr⟩ := h.foldlM_error hbad.1 hbad.2 s
    obtain ⟨r', hr'⟩ := h.foldlM_error (hxs.perm.mem_iff.mp hbad.1) hbad.2 s
    exact .inl ⟨r, r', hr, hr'⟩

end Keyed
