/-
# Hash chains

A log in which every record carries the hash of the record before it. The first record
carries a fixed hash that belongs to no record.

When a hash tells what came before it, a record of such a log stands at one place only. So
records taken from the log and put together in any way form a chain only as a stretch of the
log, in its order and without a gap.
-/

import Mathlib.Tactic

namespace HashChain

variable {R H : Type} (prev hash : R → H)

/-- Each record carries the hash before it, the first one `start`. -/
def Chained (start : H) : List R → Prop
  | [] => True
  | record :: rest => prev record = start ∧ Chained (hash record) rest

/-- The hash a further record has to carry. -/
def tip (start : H) : List R → H
  | [] => start
  | record :: rest => tip (hash record) rest

variable {prev hash} {start : H}

theorem tip_append {front back : List R} :
    tip hash start (front ++ back) = tip hash (tip hash start front) back := by
  induction front generalizing start with
  | nil => rfl
  | cons record rest ih => exact ih

theorem tip_concat {front : List R} {record : R} :
    tip hash start (front ++ [record]) = hash record := by
  rw [tip_append]
  rfl

theorem chained_append {front back : List R} :
    Chained prev hash start (front ++ back) ↔
      Chained prev hash start front ∧ Chained prev hash (tip hash start front) back := by
  induction front generalizing start with
  | nil => simp [Chained, tip]
  | cons record rest ih => simp [Chained, tip, ih, and_assoc]

theorem exists_before {log : List R} {i : Nat} {b : R} (hb : log[i + 1]? = some b) :
    ∃ a, log[i]? = some a := by
  have hlt : i + 1 < log.length := (List.getElem?_eq_some_iff.1 hb).1
  exact ⟨_, List.getElem?_eq_getElem (by omega)⟩

theorem drop_of_getElem? {log : List R} {i : Nat} {a : R} (ha : log[i]? = some a) :
    log.drop i = a :: log.drop (i + 1) := by
  obtain ⟨hi, rfl⟩ := List.getElem?_eq_some_iff.1 ha
  exact List.drop_eq_getElem_cons hi

/-- A record of a chain carries the hash of the record before it. -/
theorem Chained.prev_succ {log : List R} (h : Chained prev hash start log) {i : Nat} {a b : R}
    (ha : log[i]? = some a) (hb : log[i + 1]? = some b) : prev b = hash a := by
  induction log generalizing start i with
  | nil => simp at ha
  | cons record rest ih =>
    cases i with
    | zero =>
      cases rest with
      | nil => simp at hb
      | cons next rest =>
        simp only [List.getElem?_cons_zero, Option.some.injEq, zero_add,
          List.getElem?_cons_succ] at ha hb
        subst ha hb
        exact h.2.1
    | succ i => exact ih h.2 (by simpa using ha) (by simpa using hb)

theorem Chained.prev_zero {log : List R} (h : Chained prev hash start log) {a : R}
    (ha : log[0]? = some a) : prev a = start := by
  cases log with
  | nil => simp at ha
  | cons record rest =>
    simp only [List.getElem?_cons_zero, Option.some.injEq] at ha
    exact ha ▸ h.1

/-- A log whose hashes tell apart what came before, and never look like its start. -/
structure Sealed (prev hash : R → H) (start : H) (log : List R) : Prop where
  chained : Chained prev hash start log
  tells : ∀ a ∈ log, ∀ b ∈ log, hash a = hash b → prev a = prev b
  fresh : ∀ a ∈ log, hash a ≠ start

namespace Sealed

variable {log : List R}

section

variable (h : Sealed prev hash start log)
include h

/-- No two places of the log have the same hash. -/
theorem place {i j : Nat} {a b : R} (ha : log[i]? = some a)
    (hb : log[j]? = some b) (heq : hash a = hash b) : i = j := by
  have hprev : prev a = prev b :=
    h.tells a (List.mem_of_getElem? ha) b (List.mem_of_getElem? hb) heq
  induction i generalizing j a b with
  | zero =>
    cases j with
    | zero => rfl
    | succ j =>
      obtain ⟨c, hc⟩ := exists_before hb
      rw [h.chained.prev_zero ha, h.chained.prev_succ hc hb] at hprev
      exact (h.fresh c (List.mem_of_getElem? hc) hprev.symm).elim
  | succ i ih =>
    obtain ⟨c, hc⟩ := exists_before ha
    cases j with
    | zero =>
      rw [h.chained.prev_zero hb, h.chained.prev_succ hc ha] at hprev
      exact (h.fresh c (List.mem_of_getElem? hc) hprev).elim
    | succ j =>
      obtain ⟨d, hd⟩ := exists_before hb
      rw [h.chained.prev_succ hc ha, h.chained.prev_succ hd hb] at hprev
      have hcd : prev c = prev d :=
        h.tells c (List.mem_of_getElem? hc) d (List.mem_of_getElem? hd) hprev
      rw [ih hc hd hprev hcd]

/-- What a record of the log may be followed by is what follows it there. -/
theorem follows {i : Nat} {a b : R} (ha : log[i]? = some a)
    (hb : b ∈ log) (hlink : prev b = hash a) : log[i + 1]? = some b := by
  obtain ⟨j, hj⟩ := List.mem_iff_getElem?.1 hb
  cases j with
  | zero =>
    rw [h.chained.prev_zero hj] at hlink
    exact (h.fresh a (List.mem_of_getElem? ha) hlink.symm).elim
  | succ j =>
    obtain ⟨c, hc⟩ := exists_before hj
    rw [h.chained.prev_succ hc hj] at hlink
    rw [h.place ha hc hlink.symm]
    exact hj

/-- The record that carries the start is the first one. -/
theorem first {b : R} (hb : b ∈ log) (hlink : prev b = start) : log[0]? = some b := by
  obtain ⟨j, hj⟩ := List.mem_iff_getElem?.1 hb
  cases j with
  | zero => exact hj
  | succ j =>
    obtain ⟨c, hc⟩ := exists_before hj
    rw [h.chained.prev_succ hc hj] at hlink
    exact (h.fresh c (List.mem_of_getElem? hc) hlink).elim

/-- A chain of records of the log is the stretch of the log that begins where it does. -/
theorem stretch {taken : List R} {from' : H} {a : R} {i : Nat}
    (hmem : ∀ r ∈ a :: taken, r ∈ log) (hchain : Chained prev hash from' (a :: taken))
    (ha : log[i]? = some a) :
    a :: taken = (log.drop i).take (taken.length + 1) := by
  rw [drop_of_getElem? ha, List.take_succ_cons]
  congr 1
  induction taken generalizing a i from' with
  | nil => rfl
  | cons b rest ih =>
    have hb : log[i + 1]? = some b := h.follows ha (hmem b (by simp)) hchain.2.1
    rw [drop_of_getElem? hb, List.length_cons, List.take_succ_cons]
    congr 1
    exact ih (fun r hr => hmem r (List.mem_cons_of_mem _ hr)) hchain.2 hb

end

end Sealed

end HashChain
