/-
# Searching a stream for a text

The place of the first window of a buffer that equals a needle, and what is known of it when
more arrives behind the buffer: a place whose window is complete is decided for good, and only
the last few bytes of a buffer can still grow into an occurrence.

A needle whose first letter comes again only with another letter behind it cannot overlap
itself. `Apart` states that of a text, letter by letter, so that it is checked along the text.
-/

import Mathlib.Data.List.Infix
import Mathlib.Tactic

namespace Search

open List

variable {α : Type} [DecidableEq α]

/-- The index of the first window that equals the needle. -/
def find (haystack needle : List α) : Option Nat :=
  (List.range (haystack.length + 1 - needle.length)).find? fun i =>
    needle.isPrefixOf (haystack.drop i)

/-- The needle stands at a place of a text. -/
def At (needle text : List α) (i : Nat) : Prop := needle <+: text.drop i

section At

variable {needle text more : List α} {i : Nat}

section

omit [DecidableEq α]

theorem At.le_length (h : At needle text i) (hne : needle ≠ []) :
    i + needle.length ≤ text.length := by
  have hlen := h.length_le
  rw [length_drop] at hlen
  have hpos := length_pos_iff.mpr hne
  omega

theorem At.getElem? (h : At needle text i) {k : Nat} (hk : k < needle.length) :
    text[i + k]? = needle[k]? := by
  obtain ⟨rest, hrest⟩ := h
  rw [← List.getElem?_drop, ← hrest, List.getElem?_append_left hk]

theorem At.append (h : At needle text i) (more : List α) : At needle (text ++ more) i := by
  refine h.trans ?_
  rw [drop_append]
  exact prefix_append _ _

/-- A window that is complete stays as it is. -/
theorem at_append_iff (h : i + needle.length ≤ text.length) :
    At needle (text ++ more) i ↔ At needle text i := by
  refine ⟨fun hat => ?_, fun hat => hat.append more⟩
  unfold At at hat ⊢
  rw [drop_append_of_le_length (by omega)] at hat
  exact prefix_of_prefix_length_le hat (prefix_append _ _)
    (by rw [length_drop]; omega)

theorem at_append_right (front : List α) : At needle (front ++ text) (front.length + i) ↔
    At needle text i := by
  unfold At
  rw [drop_append, drop_eq_nil_of_le (by omega), Nat.add_sub_cancel_left, nil_append]

theorem At.tail (h : At needle text i) : At needle.tail text (i + 1) := by
  obtain ⟨rest, hrest⟩ := h
  cases needle with
  | nil => exact nil_prefix
  | cons a needle =>
    refine ⟨rest, ?_⟩
    rw [← drop_drop, ← hrest, tail_cons, cons_append, drop_one, tail_cons]

theorem At.isInfix (h : At needle text i) : needle <:+: text.take (i + needle.length) := by
  obtain ⟨rest, hrest⟩ := h
  refine ⟨text.take i, [], ?_⟩
  rw [append_nil, take_add, ← hrest, take_left]

end

end At

section Find

variable {haystack needle : List α} {i : Nat}

theorem find_eq_some (h : find haystack needle = some i) :
    At needle haystack i ∧ ∀ j < i, ¬At needle haystack j := by
  rw [find, List.find?_range_eq_some] at h
  obtain ⟨hat, -, hbefore⟩ := h
  refine ⟨ isPrefixOf_iff_prefix.mp hat, fun j hj hjat => ?_⟩
  have hnot := hbefore j hj
  rw [Bool.not_eq_true', ← Bool.not_eq_true, isPrefixOf_iff_prefix] at hnot
  exact hnot hjat

theorem find_eq_none (hne : needle ≠ []) (h : find haystack needle = none) :
    ∀ j, ¬At needle haystack j := by
  intro j hat
  rw [find, List.find?_eq_none] at h
  have hle := hat.le_length hne
  exact h j (mem_range.mpr (by omega)) ( isPrefixOf_iff_prefix.mpr hat)

/-- The first occurrence there is. -/
theorem find_of_first (hne : needle ≠ []) (hat : At needle haystack i)
    (hbefore : ∀ j < i, ¬At needle haystack j) : find haystack needle = some i := by
  cases hfind : find haystack needle with
  | none => exact absurd hat (find_eq_none hne hfind i)
  | some j =>
    obtain ⟨hjat, hjbefore⟩ := find_eq_some hfind
    rcases Nat.lt_trichotomy i j with hlt | heq | hgt
    · exact absurd hat (hjbefore i hlt)
    · rw [heq]
    · exact absurd hjat (hbefore j hgt)

theorem find_of_none (h : ∀ j, ¬At needle haystack j) : find haystack needle = none := by
  cases hfind : find haystack needle with
  | none => rfl
  | some j => exact absurd (find_eq_some hfind).1 (h j)

end Find

/-- Wherever `a` stands in a text, something other than `b` stands `gap` places on. -/
def Apart (a b : α) (gap : Nat) (text : List α) : Prop :=
  ∀ k, text[k]? = some a → ∃ c, text[k + gap]? = some c ∧ c ≠ b

section Apart

variable {a b : α} {gap : Nat} {text needle : List α}

section

omit [DecidableEq α]

theorem apart_nil : Apart a b gap ([] : List α) := by
  intro k hk
  cases hk

theorem Apart.cons_of_ne {c : α} (hc : c ≠ a) (h : Apart a b gap text) :
    Apart a b gap (c :: text) := by
  intro k hk
  cases k with
  | zero =>
    rw [List.getElem?_cons_zero, Option.some.injEq] at hk
    exact absurd hk hc
  | succ k =>
    rw [List.getElem?_cons_succ] at hk
    rw [Nat.add_right_comm, List.getElem?_cons_succ]
    exact h k hk

theorem Apart.cons {c d : α} (hd : (c :: text)[gap]? = some d) (hne : d ≠ b)
    (h : Apart a b gap text) : Apart a b gap (c :: text) := by
  intro k hk
  cases k with
  | zero =>
    rw [Nat.zero_add]
    exact ⟨d, hd, hne⟩
  | succ k =>
    rw [List.getElem?_cons_succ] at hk
    rw [Nat.add_right_comm, List.getElem?_cons_succ]
    exact h k hk

/-- A stretch without the letter. -/
theorem Apart.append {front : List α} (hfront : a ∉ front) (h : Apart a b gap text) :
    Apart a b gap (front ++ text) := by
  induction front with
  | nil => exact h
  | cons c front ih =>
    rw [mem_cons, not_or] at hfront
    exact (ih hfront.2).cons_of_ne (Ne.symm hfront.1)

/-- A needle that has `a` first and `b` after it does not begin inside the text. -/
theorem Apart.not_at (h : Apart a b gap text) (ha : needle[0]? = some a)
    (hb : needle[gap]? = some b) {whole : List α} {start i : Nat} (htext : At text whole start)
    (hle : start ≤ i) (hlt : i < start + text.length) : ¬At needle whole i := by
  intro hat
  obtain ⟨k, rfl⟩ := Nat.exists_eq_add_of_le hle
  have hk : k < text.length := by omega
  have hzero : 0 < needle.length := (List.getElem?_eq_some_iff.mp ha).1
  have hgap : gap < needle.length := (List.getElem?_eq_some_iff.mp hb).1
  have hfirst : text[k]? = some a := by
    rw [← htext.getElem? hk, ← ha, ← hat.getElem? hzero, Nat.add_zero]
  obtain ⟨c, hc, hne⟩ := h k hfirst
  have hsecond : text[k + gap]? = some b := by
    rw [← htext.getElem? (List.getElem?_eq_some_iff.mp hc).1, ← hb, ← hat.getElem? hgap,
      Nat.add_assoc]
  rw [hc, Option.some.injEq] at hsecond
  exact hne hsecond

end

end Apart

end Search
