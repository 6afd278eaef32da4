/-
# Computations that may panic

An index out of range, a slice past the end of its buffer and an unsigned
subtraction below zero all stop a program. Here each of them is an operation that
returns `none`, and a body is written with them in the order the code performs them.

`Runs x Q` is the total reading: `x` does not panic, and `Q` holds of what it
returns. Its rules follow the ways a body is built, so that the proof about a body
discharges every access it makes on the way to its postcondition. `Yields x Q` is the
partial one, which asks for `Q` where `x` returns: it serves a second account of a body
that is known to run.
-/

import Mathlib.Tactic

/-- A computation that panics, as `none`, or returns an `α`. -/
abbrev Checked (α : Type) := Option α

namespace Checked

open List

variable {α β σ ι : Type}

/-- Read an element of a buffer. -/
def index (xs : List α) (i : Nat) : Checked α := xs[i]?

/-- Overwrite an element of a buffer. -/
def assign (xs : List α) (i : Nat) (a : α) : Checked (List α) :=
  if i < xs.length then some (xs.set i a) else none

/-- Change an element of a buffer by a computation that may panic itself. -/
def update (xs : List α) (i : Nat) (f : α → Checked α) : Checked (List α) := do
  let a ← index xs i
  let b ← f a
  assign xs i b

/-- Exchange two elements of a buffer. -/
def swap (xs : List α) (i j : Nat) : Checked (List α) := do
  let a ← index xs i
  let b ← index xs j
  let xs ← assign xs i b
  assign xs j a

/-- Change every element of a slice of a buffer. -/
def mapSlice (xs : List α) (start stop : Nat) (f : α → α) : Checked (List α) :=
  if start ≤ stop ∧ stop ≤ xs.length then
    some (xs.take start ++ ((xs.take stop).drop start).map f ++ xs.drop stop)
  else none

/-- A buffer cut down or filled up to a length. -/
def resize (xs : List α) (n : Nat) (a : α) : List α := xs.take n ++ List.replicate (n - xs.length) a

/-- Unsigned subtraction. -/
def sub (m n : Nat) : Checked Nat := if n ≤ m then some (m - n) else none

/-- The indices of a half-open range. -/
def span (start stop : Nat) : List Nat := List.range' start (stop - start)

/-- Run a loop body over a list, left to right. -/
def each (is : List ι) (s : σ) (body : σ → ι → Checked σ) : Checked σ := is.foldlM body s

@[simp]
theorem length_resize (xs : List α) (n : Nat) (a : α) : (resize xs n a).length = n := by
  simp only [resize, length_append, length_take, length_replicate]
  omega

@[simp]
theorem mem_span {start stop i : Nat} : i ∈ span start stop ↔ start ≤ i ∧ i < stop := by
  rw [span, mem_range'_1]
  omega

/-- The computation returns, and `Q` holds of what it returns. -/
def Runs (x : Checked α) (Q : α → Prop) : Prop := ∃ a, x = some a ∧ Q a

namespace Runs

variable {x : Checked α} {P Q : α → Prop} {R : β → Prop} {xs : List α} {a : α}
variable {body : σ → Nat → Checked σ}

theorem pure (h : Q a) : Runs (Pure.pure a) Q := ⟨a, rfl, h⟩

theorem some (h : Q a) : Runs (Option.some a) Q := ⟨a, rfl, h⟩

theorem mono (h : Runs x P) (hmono : ∀ a, P a → Q a) : Runs x Q := by
  obtain ⟨a, hx, ha⟩ := h
  exact ⟨a, hx, hmono a ha⟩

/-- Two accounts of one computation. -/
theorem and (h : Runs x P) (h' : Runs x Q) : Runs x fun a => P a ∧ Q a := by
  obtain ⟨a, hx, ha⟩ := h
  obtain ⟨a', hx', ha'⟩ := h'
  rw [hx] at hx'
  cases hx'
  exact ⟨a, hx, ha, ha'⟩

theorem bind {f : α → Checked β} (h : Runs x P) (hf : ∀ a, P a → Runs (f a) R) :
    Runs (x >>= f) R := by
  obtain ⟨a, rfl, ha⟩ := h
  exact hf a ha

theorem ite {c : Prop} [Decidable c] {y : Checked α} (hpos : c → Runs x Q)
    (hneg : ¬c → Runs y Q) : Runs (if c then x else y) Q := by
  split
  · exact hpos ‹c›
  · exact hneg ‹¬c›

theorem index {i : Nat} (h : i < xs.length) :
    Runs (index xs i) fun a => xs[i]? = Option.some a := by
  rw [Checked.index, List.getElem?_eq_getElem h]
  exact some rfl

theorem assign {i : Nat} (h : i < xs.length) : Runs (assign xs i a) fun ys => ys = xs.set i a := by
  rw [Checked.assign, if_pos h]
  exact some rfl

/-- A list written over a stretch of a buffer, element by element. -/
theorem assignAll {line : List α} (k : Nat) (h : k + xs.length ≤ line.length) :
    Runs ((xs.zipIdx k).foldlM (fun line a => Checked.assign line a.2 a.1) line) fun line' =>
      line' = line.take k ++ xs ++ line.drop (k + xs.length) := by
  induction xs generalizing k line with
  | nil =>
    refine pure ?_
    rw [append_nil, length_nil, Nat.add_zero, take_append_drop]
  | cons a xs ih =>
    rw [length_cons] at h
    rw [zipIdx_cons, foldlM_cons]
    refine bind (assign (by omega)) fun line' hline' => ?_
    subst hline'
    refine (ih (k + 1) (by rw [length_set]; omega)).mono fun out hout => ?_
    have hdrop : (line.set k a).drop (k + 1 + xs.length) = line.drop (k + 1 + xs.length) :=
      drop_set_of_lt (by omega)
    rw [hout, hdrop, take_add_one, take_set_of_le (Nat.le_refl k),
      List.getElem?_set_self (by omega), length_cons, Nat.add_right_comm, ← Nat.add_assoc,
      Option.toList_some, append_assoc (line.take k), singleton_append]

/-- A changed slice, element by element. -/
theorem mapSlice {start stop : Nat} {f : α → α} (hstart : start ≤ stop) (hstop : stop ≤ xs.length) :
    Runs (mapSlice xs start stop f) fun ys => ys.length = xs.length ∧
      ∀ i, ys[i]? = if start ≤ i ∧ i < stop then xs[i]?.map f else xs[i]? := by
  rw [Checked.mapSlice, if_pos ⟨hstart, hstop⟩]
  apply some
  constructor
  · simp only [length_append, length_take, length_map, length_drop]
    omega
  · intro i
    rw [append_assoc, List.getElem?_append, List.getElem?_append, length_take,
      min_eq_left (hstart.trans hstop), length_map, length_drop, length_take,
      min_eq_left hstop]
    by_cases hi : i < start
    · rw [if_pos hi, if_neg (by omega), List.getElem?_take_of_lt hi]
    · rw [if_neg hi]
      by_cases hi' : i < stop
      · rw [if_pos (by omega), if_pos ⟨by omega, hi'⟩, List.getElem?_map, List.getElem?_drop,
          Nat.add_sub_cancel' (by omega), List.getElem?_take_of_lt hi']
      · rw [if_neg (by omega), if_neg (by omega), List.getElem?_drop]
        congr 1
        omega

theorem sub {m n : Nat} (h : n ≤ m) : Runs (sub m n) fun d => d = m - n := by
  rw [Checked.sub, if_pos h]
  exact some rfl

/-- An invariant of a loop: it holds at the start, and the body keeps it without
panicking. -/
theorem each {is : List ι} {s : σ} {body : σ → ι → Checked σ} (I : σ → Prop) (hs : I s)
    (hbody : ∀ i ∈ is, ∀ s, I s → Runs (body s i) I) : Runs (each is s body) I := by
  induction is generalizing s with
  | nil => exact pure hs
  | cons i is ih =>
    rw [Checked.each, foldlM_cons]
    apply bind (hbody i mem_cons_self s hs)
    intro s' hs'
    exact ih hs' fun j hj => hbody j (mem_cons_of_mem i hj)

/-- A loop over a range, with an invariant that knows how far it has come. -/
theorem eachSpan {start stop : Nat} {s : σ} (I : Nat → σ → Prop)
    (hle : start ≤ stop) (hs : I start s)
    (hbody : ∀ i, start ≤ i → i < stop → ∀ s, I i s → Runs (body s i) (I (i + 1))) :
    Runs (Checked.each (span start stop) s body) (I stop) := by
  induction hn : stop - start generalizing start s with
  | zero =>
    have hstop : stop = start := by omega
    subst hstop
    rw [span, hn]
    exact pure hs
  | succ n ih =>
    rw [span, hn, range'_succ, Checked.each, foldlM_cons]
    apply bind (hbody start le_rfl (by omega) s hs)
    intro s' hs'
    have hrest := ih (by omega) hs' (fun i hi => hbody i (by omega)) (by omega)
    rwa [span, show stop - (start + 1) = n by omega] at hrest

/-- A loop over a range from its end, with an invariant that knows how far it has come. -/
theorem eachSpanReverse {start stop : Nat} {s : σ}
    (I : Nat → σ → Prop) (hle : start ≤ stop) (hs : I stop s)
    (hbody : ∀ i, start ≤ i → i < stop → ∀ s, I (i + 1) s → Runs (body s i) (I i)) :
    Runs (Checked.each (span start stop).reverse s body) (I start) := by
  induction hn : stop - start generalizing stop s with
  | zero =>
    have hstop : stop = start := by omega
    subst hstop
    rw [span, hn]
    exact pure hs
  | succ n ih =>
    have hlast : stop = start + n + 1 := by omega
    subst hlast
    rw [span, hn, range'_concat, reverse_append, reverse_singleton,
      singleton_append, Checked.each, foldlM_cons, Nat.one_mul]
    apply bind (hbody (start + n) (by omega) (by omega) s hs)
    intro s' hs'
    have hrest := ih (by omega) hs' (fun i hi _ => hbody i hi (by omega)) (by omega)
    rwa [span, show start + n - start = n by omega] at hrest

/-- A computation run on every element of a list, each result related to its element. -/
theorem mapM {S : α → β → Prop} {f : α → Checked β} (hf : ∀ a ∈ xs, Runs (f a) (S a)) :
    Runs (xs.mapM f) (List.Forall₂ S xs) := by
  induction xs with
  | nil => exact pure .nil
  | cons a xs ih =>
    rw [mapM_cons]
    apply bind (hf a mem_cons_self)
    intro b hb
    apply bind (ih fun a' ha' => hf a' (mem_cons_of_mem a ha'))
    intro bs hbs
    exact pure (.cons hb hbs)

/-- An exchange keeps every element of a buffer, and the other places. -/
theorem swap {i j : Nat} (hi : i < xs.length) (hj : j < xs.length) :
    Runs (swap xs i j) fun ys => ys.Perm xs ∧ ∀ k, k ≠ i → k ≠ j → ys[k]? = xs[k]? := by
  refine ⟨(xs.set i xs[j]).set j xs[i], ?_, set_set_perm hi hj, fun k hki hkj => ?_⟩
  · simp [Checked.swap, Checked.index, Checked.assign, hi, hj]
  · rw [List.getElem?_set_ne (Ne.symm hkj), List.getElem?_set_ne (Ne.symm hki)]

/-- An exchange, place by place. -/
theorem swap_at {i j : Nat} (hij : i < j) (hj : j < xs.length) :
    Runs (Checked.swap xs i j) fun ys => ys.length = xs.length ∧
      ∀ k, ys[k]? = if k = i then xs[j]? else if k = j then xs[i]? else xs[k]? := by
  have hi : i < xs.length := hij.trans hj
  refine ⟨(xs.set i xs[j]).set j xs[i], ?_, ?_, fun k => ?_⟩
  · simp [Checked.swap, Checked.index, Checked.assign, hi, hj]
  · rw [length_set, length_set]
  · rw [List.getElem?_set, List.getElem?_set, length_set]
    by_cases hki : k = i
    · subst hki
      rw [if_neg (by omega), if_pos rfl, if_pos hi, if_pos rfl, List.getElem?_eq_getElem hj]
    · rw [if_neg hki]
      by_cases hkj : k = j
      · subst hkj
        rw [if_pos rfl, if_pos hj, if_pos rfl, List.getElem?_eq_getElem hi]
      · rw [if_neg (Ne.symm hkj), if_neg (Ne.symm hki), if_neg hkj]

end Runs

/-- `Q` holds of what the computation returns, if it does not panic. -/
def Yields (x : Checked α) (Q : α → Prop) : Prop := ∀ a, x = some a → Q a

namespace Yields

variable {x : Checked α} {P Q : α → Prop} {R : β → Prop} {a : α}

theorem pure (h : Q a) : Yields (Pure.pure a) Q := by
  rintro _ ⟨⟩
  exact h

theorem mono (h : Yields x P) (hmono : ∀ a, P a → Q a) : Yields x Q := fun a ha => hmono a (h a ha)

theorem bind {f : α → Checked β} (h : Yields x P) (hf : ∀ a, P a → Yields (f a) R) :
    Yields (x >>= f) R := by
  intro b hb
  obtain ⟨a, ha, hb⟩ := Option.bind_eq_some_iff.mp hb
  exact hf a (h a ha) b hb

/-- Go on whatever the first computation returns. -/
theorem after {f : α → Checked β} (hf : ∀ a, Yields (f a) R) : Yields (x >>= f) R :=
  bind (P := fun _ => True) (fun _ _ => trivial) fun a _ => hf a

theorem ite {c : Prop} [Decidable c] {y : Checked α} (hpos : c → Yields x Q)
    (hneg : ¬c → Yields y Q) : Yields (if c then x else y) Q := by
  split
  · exact hpos ‹c›
  · exact hneg ‹¬c›

/-- An invariant of a loop. -/
theorem each {is : List ι} {s : σ} {body : σ → ι → Checked σ} (I : σ → Prop) (hs : I s)
    (hbody : ∀ i ∈ is, ∀ s, I s → Yields (body s i) I) : Yields (Checked.each is s body) I := by
  induction is generalizing s with
  | nil => exact pure hs
  | cons i is ih =>
    rw [Checked.each, foldlM_cons]
    refine bind (hbody i mem_cons_self s hs) fun s' hs' => ?_
    exact ih hs' fun j hj => hbody j (mem_cons_of_mem i hj)

/-- A second account of a computation that runs. -/
theorem runs (h : Yields x Q) (hx : Runs x P) : Runs x fun a => P a ∧ Q a := by
  obtain ⟨a, ha, hp⟩ := hx
  exact ⟨a, ha, hp, h a ha⟩

end Yields

theorem Runs.yields {x : Checked α} {Q : α → Prop} (h : Runs x Q) : Yields x Q := by
  obtain ⟨a, rfl, ha⟩ := h
  rintro _ ⟨⟩
  exact ha

/-- Both computations return, and `R` relates what they return. -/
def Both (x : Checked α) (y : Checked β) (R : α → β → Prop) : Prop :=
  ∃ a b, x = some a ∧ y = some b ∧ R a b

namespace Both

variable {α' β' : Type} {x : Checked α} {y : Checked β} {R R' : α → β → Prop}

theorem pure {a : α} {b : β} (h : R a b) : Both (Pure.pure a) (Pure.pure b) R := ⟨a, b, rfl, rfl, h⟩

theorem bind {f : α → Checked α'} {g : β → Checked β'} {S : α' → β' → Prop} (h : Both x y R)
    (hfg : ∀ a b, R a b → Both (f a) (g b) S) : Both (x >>= f) (y >>= g) S := by
  obtain ⟨a, b, rfl, rfl, hab⟩ := h
  exact hfg a b hab

/-- A computation beside itself. -/
theorem of_runs {Q : α → Prop} (h : Runs x Q) : Both x x fun a b => b = a ∧ Q a := by
  obtain ⟨a, hx, ha⟩ := h
  exact ⟨a, a, hx, hx, rfl, ha⟩

theorem ite {c : Prop} [Decidable c] {x' : Checked α} {y' : Checked β} (hpos : c → Both x y R)
    (hneg : ¬c → Both x' y' R) : Both (if c then x else x') (if c then y else y') R := by
  split
  · exact hpos ‹c›
  · exact hneg ‹¬c›

/-- Two loops over the same list. -/
theorem each {is : List ι} {s : α} {s' : β} {f : α → ι → Checked α} {g : β → ι → Checked β}
    (hs : R s s') (hbody : ∀ i ∈ is, ∀ s s', R s s' → Both (f s i) (g s' i) R) :
    Both (Checked.each is s f) (Checked.each is s' g) R := by
  induction is generalizing s s' with
  | nil => exact pure hs
  | cons i is ih =>
    rw [Checked.each, Checked.each, foldlM_cons, foldlM_cons]
    apply bind (hbody i mem_cons_self s s' hs)
    intro t t' ht
    exact ih ht fun j hj => hbody j (mem_cons_of_mem i hj)

/-- What the first of two computations does on its own. -/
theorem left (h : Both x y R) : Runs x fun a => ∃ b, y = some b ∧ R a b := by
  obtain ⟨a, b, hx, hy, hab⟩ := h
  exact ⟨a, hx, b, hy, hab⟩

end Both

end Checked
