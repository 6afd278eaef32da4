/-
# A list of chunks, read from the front

What was read of chunks that are handed on one after another is some whole chunks, and a part of
the next one that is shorter than it.

A reader who looks for a marker in each chunk by itself misses those that run across two of them.
-/

import Mathlib.Tactic

namespace Chunks

open List

variable {α : Type}
variable {chunks : List (List α)}

/-- A beginning of the next chunk that is not all of it; no chunk needs to be next for nothing. -/
def PartOf (part : List α) (chunks : List (List α)) : Prop :=
  part = [] ∨ ∃ c cs, chunks = c :: cs ∧ part <+: c ∧ part.length < c.length

theorem PartOf.nil (chunks : List (List α)) : PartOf [] chunks := .inl rfl

/-- More chunks behind the next one make no difference. -/
theorem PartOf.append {part : List α} (h : PartOf part chunks)
    (more : List (List α)) : PartOf part (chunks ++ more) := by
  refine h.imp_right ?_
  rintro ⟨c, cs, rfl, hpart⟩
  exact ⟨c, cs ++ more, rfl, hpart⟩

/-- Reading a number of bytes ends inside a chunk, or between two. -/
theorem exists_cut (chunks : List (List α)) (n : Nat) :
    ∃ whole rest part, chunks = whole ++ rest ∧
      chunks.flatten.take n = whole.flatten ++ part ∧
      part ++ chunks.flatten.drop n = rest.flatten ∧ PartOf part rest := by
  induction chunks generalizing n with
  | nil =>
    refine ⟨[], [], [], rfl, ?_, ?_, .nil _⟩
    · rw [flatten_nil, take_nil]
      rfl
    · rw [flatten_nil, drop_nil]
      rfl
  | cons c cs ih =>
    rw [flatten_cons]
    rcases Nat.lt_or_ge n c.length with hn | hn
    · refine ⟨[], c :: cs, c.take n, rfl, ?_, ?_, .inr ⟨c, cs, rfl, take_prefix n c, ?_⟩⟩
      · rw [take_append_of_le_length hn.le]
        rfl
      · rw [drop_append_of_le_length hn.le, ← append_assoc, take_append_drop, flatten_cons]
      · rw [length_take]
        exact (Nat.min_le_left _ _).trans_lt hn
    · obtain ⟨whole, rest, part, rfl, htake, hdrop, hpart⟩ := ih (n - c.length)
      refine ⟨c :: whole, rest, part, rfl, ?_, ?_, hpart⟩
      · rw [take_append, take_of_length_le hn, htake, flatten_cons, append_assoc]
      · rw [drop_append, drop_of_length_le hn, nil_append]
        exact hdrop

/-- A marker stands at a position. -/
def At (marker stream : List α) (i : Nat) : Prop := marker <+: stream.drop i

instance [DecidableEq α] (marker stream : List α) (i : Nat) : Decidable (At marker stream i) :=
  inferInstanceAs (Decidable (marker <+: stream.drop i))

/-- A marker runs from the first part of a stream into the second. -/
def Straddles (marker first second : List α) : Prop :=
  ∃ k, 0 < k ∧ k < marker.length ∧ marker.take k <:+ first ∧ marker.drop k <+: second

instance [DecidableEq α] (marker first second : List α) :
    Decidable (Straddles marker first second) :=
  decidable_of_iff (∃ k, k < marker.length ∧ 0 < k ∧ marker.take k <:+ first ∧
    marker.drop k <+: second) <| exists_congr fun _ =>
      ⟨fun ⟨hlt, hpos, hparts⟩ => ⟨hpos, hlt, hparts⟩, fun ⟨hpos, hlt, hparts⟩ =>
        ⟨hlt, hpos, hparts⟩⟩

/-- A marker has begun something that no later marker ends. -/
def Opened (start stop stream : List α) : Prop :=
  ∃ i, At start stream i ∧ ∀ j, i < j → ¬ At stop stream j

variable {marker first second : List α} {i : Nat}

theorem At.le_length (h : At marker first i) : marker.length ≤ first.length - i := by
  have hle := List.IsPrefix.length_le h
  rwa [length_drop] at hle

theorem At.append_left (h : At marker second i) (first : List α) :
    At marker (first ++ second) (first.length + i) := by
  unfold At
  rwa [drop_length_add_append]

theorem At.append_right (h : At marker first i) (second : List α) :
    At marker (first ++ second) i := by
  unfold At
  rw [drop_append]
  exact List.IsPrefix.trans h (prefix_append _ _)

/-- A marker of two parts stands in one of them or straddles. -/
theorem At.of_append (h : At marker (first ++ second) i) :
    At marker first i ∨ (first.length ≤ i ∧ At marker second (i - first.length)) ∨
      Straddles marker first second := by
  unfold At at h
  rw [drop_append] at h
  rcases Nat.lt_or_ge i first.length with hi | hi
  · have hzero : i - first.length = 0 := by omega
    rw [hzero, drop_zero] at h
    rcases prefix_or_prefix_of_prefix h (prefix_append (first.drop i) second) with
      hin | ⟨tail, htail⟩
    · exact .inl hin
    · by_cases hnil : tail = []
      · refine .inl ⟨[], ?_⟩
        rw [← htail, hnil, append_nil, append_nil]
      · have hlength : (first.drop i).length = first.length - i := length_drop
        have htotal := congrArg List.length htail
        have hpos := length_pos_iff.mpr hnil
        rw [length_append] at htotal
        refine .inr (.inr ⟨first.length - i, by omega, by omega, ?_, ?_⟩)
        · rw [← htail, take_left' hlength]
          exact drop_suffix i first
        · rw [← htail, drop_left' hlength]
          rw [← htail] at h
          exact (prefix_append_right_inj _).mp h
  · rw [drop_of_length_le hi, nil_append] at h
    exact .inr (.inl ⟨hi, h⟩)

/-- What a chunk leaves open was begun in it, or before it and the chunk does not end it. -/
theorem Opened.of_append {start stop : List α} (hne : start ≠ [])
    (hcut : ¬ Straddles start first second) (h : Opened start stop (first ++ second)) :
    Opened start stop second ∨ (Opened start stop first ∧ ∀ j, ¬ At stop second j) := by
  obtain ⟨i, hstart, hstop⟩ := h
  rcases hstart.of_append with hfirst | ⟨hle, hsecond⟩ | hstraddles
  · have hlength := hfirst.le_length
    have hpos := length_pos_iff.mpr hne
    refine .inr ⟨⟨i, hfirst, fun j hj hat => hstop j hj (hat.append_right second)⟩,
      fun j hat => hstop (first.length + j) (by omega) (hat.append_left first)⟩
  · refine .inl ⟨i - first.length, hsecond, fun j hj hat => ?_⟩
    exact hstop (first.length + j) (by omega) (hat.append_left first)
  · exact (hcut hstraddles).elim

/-- No marker runs across the end of a chunk. -/
def Uncut (marker : List α) (chunks : List (List α)) : Prop :=
  ∀ before after, chunks = before ++ after → ¬ Straddles marker before.flatten after.flatten

theorem uncut_iff : Uncut marker chunks ↔ ∀ n, n < chunks.length + 1 →
      ¬ Straddles marker (chunks.take n).flatten (chunks.drop n).flatten := by
  refine ⟨fun h n _ => h _ _ (take_append_drop n chunks).symm, ?_⟩
  rintro h before after rfl
  have hcut := h before.length (by rw [length_append]; omega)
  rwa [take_left, drop_left] at hcut

instance [DecidableEq α] (marker : List α) (chunks : List (List α)) :
    Decidable (Uncut marker chunks) := decidable_of_iff _ uncut_iff.symm

/-- The chunks up to one of them are uncut when all are. -/
theorem Uncut.append_left {before after : List (List α)} (h : Uncut marker (before ++ after)) :
    Uncut marker before := by
  rintro first second rfl ⟨k, hpos, hlt, hsuffix, hprefix⟩
  refine h first (second ++ after) (append_assoc _ _ _) ⟨k, hpos, hlt, hsuffix, ?_⟩
  rw [flatten_append]
  exact hprefix.trans (prefix_append _ _)

/-- Chunks with nothing in them cut nothing. -/
theorem Uncut.filter (h : Uncut marker chunks) :
    Uncut marker (chunks.filter fun c => !c.isEmpty) := by
  intro before after hsplit
  obtain ⟨first, second, rfl, rfl, rfl⟩ := filter_eq_append_iff.mp hsplit
  rw [flatten_filter_not_isEmpty, flatten_filter_not_isEmpty]
  exact h first second rfl

/-- Nor across the end of the chunk that is next. -/
theorem Uncut.next {before : List (List α)} {chunk : List α} {after : List (List α)}
    (h : Uncut marker (before ++ chunk :: after)) : ¬ Straddles marker before.flatten chunk := by
  rintro ⟨k, hpos, hlt, hsuffix, hprefix⟩
  refine h before (chunk :: after) rfl ⟨k, hpos, hlt, hsuffix, ?_⟩
  rw [flatten_cons]
  exact hprefix.trans (prefix_append _ _)

end Chunks
