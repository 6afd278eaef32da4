/-
# Searching for a free name

Numbered candidates are tried in order until one is not taken. The search takes
the number of candidates it may try, so it is total; when the candidates differ
from each other and there are more of them than names taken, it succeeds.
-/

import Mathlib.Tactic

namespace FirstFree

variable {β : Type}
variable {candidate : Nat → β} {taken : β → Bool}

/-- The first free candidate among `fuel` of them, numbered from `start`. -/
def search (taken : β → Bool) (candidate : Nat → β) (start : Nat) : Nat → Option β
  | 0 => none
  | fuel + 1 =>
    if taken (candidate start) then search taken candidate (start + 1) fuel
    else some (candidate start)

/-- What the search returns is a candidate within its range, and free. -/
theorem of_search_eq_some {found : β} {fuel start : Nat}
    (hfound : search taken candidate start fuel = some found) :
    taken found = false ∧ ∃ n, start ≤ n ∧ n < start + fuel ∧ found = candidate n := by
  induction fuel generalizing start with
  | zero => cases hfound
  | succ fuel ih =>
    rw [search] at hfound
    split at hfound
    · obtain ⟨hfree, n, hlo, hhi, heq⟩ := ih hfound
      exact ⟨hfree, n, by omega, by omega, heq⟩
    · rename_i hfree
      cases hfound
      exact ⟨by simpa using hfree, start, le_refl _, by omega, rfl⟩

/-- When the search finds nothing, every candidate in its range is taken. -/
theorem taken_of_search_eq_none {fuel start : Nat}
    (hnone : search taken candidate start fuel = none) :
    ∀ n, start ≤ n → n < start + fuel → taken (candidate n) = true := by
  induction fuel generalizing start with
  | zero => intro n hlo hhi; omega
  | succ fuel ih =>
    rw [search] at hnone
    split at hnone
    · rename_i htaken
      intro n hlo hhi
      rcases Nat.eq_or_lt_of_le hlo with heq | hlt
      · subst heq
        exact htaken
      · exact ih hnone n hlt (by omega)
    · cases hnone

/-- More candidates than taken names: the search succeeds. -/
theorem exists_search_eq_some {start fuel : Nat} (names : List β)
    (hnames : ∀ n, n < start + fuel → taken (candidate n) = true → candidate n ∈ names)
    (hinj : Set.InjOn candidate (Set.Ici start)) (hlen : names.length < fuel) :
    ∃ found, search taken candidate start fuel = some found := by
  by_contra hnone
  have hall := taken_of_search_eq_none
    (Option.eq_none_iff_forall_ne_some.mpr fun found hfound => hnone ⟨found, hfound⟩)
  -- Pigeonhole: the candidates are `fuel` distinct members of a shorter list.
  have hsub : (List.range' start fuel).map candidate ⊆ names := by
    intro b hb
    obtain ⟨n, hn, rfl⟩ := List.mem_map.mp hb
    rw [List.mem_range'_1] at hn
    exact hnames n hn.2 (hall n hn.1 hn.2)
  have hnodup : ((List.range' start fuel).map candidate).Nodup := by
    refine List.Nodup.map_on (fun m hm n hn heq => ?_) List.nodup_range'
    rw [List.mem_range'_1] at hm hn
    exact hinj hm.1 hn.1 heq
  have hle := (hnodup.subperm hsub).length_le
  simp at hle
  omega

end FirstFree
