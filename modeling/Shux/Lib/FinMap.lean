/-
# Finite maps

A hash map holds finitely many keys, each with one value, and promises nothing
about the order in which it lists them. Here it is an association list without
duplicate keys, wrapped so that everything above this file reads a map through
`get` and never through the list.

Every operation comes with the lemma that says what `get` returns after it. A map
grew from another when its entries go back to entries of the other or are new. Sums
over the values have two rules: inserting a new key adds its weight, and a map
whose entries are all bounded by entries of another weighs no more than it.
-/

import Mathlib.Data.List.AList
import Mathlib.Algebra.Order.BigOperators.Group.Finset
import Mathlib.Algebra.BigOperators.Group.Finset.Basic
import Mathlib.Tactic

/-- A finite map from `K` to `V`. -/
structure FinMap (K V : Type) where
  /-- The entries, with pairwise distinct keys. -/
  toAList : AList (fun _ : K => V)

namespace FinMap

open List

variable {K V : Type}

/-- The map with no entry. -/
def empty : FinMap K V := ⟨∅⟩

instance : EmptyCollection (FinMap K V) := ⟨empty⟩

/-- The keys, each once. -/
def keys (m : FinMap K V) : List K := m.toAList.keys

/-- The values, one for each key. -/
def values (m : FinMap K V) : List V := m.toAList.entries.map Sigma.snd

/-- The number of entries. -/
def size (m : FinMap K V) : Nat := m.values.length

/-- Replace every value by a function of its key and itself. -/
def mapKV (m : FinMap K V) (f : K → V → V) : FinMap K V :=
  ⟨⟨m.toAList.entries.map fun e => ⟨e.1, f e.1 e.2⟩, by
    have hkeys : (m.toAList.entries.map fun e => (⟨e.1, f e.1 e.2⟩ : Sigma fun _ : K => V)).keys =
        m.toAList.entries.keys := by
      simp [List.keys, Function.comp_def]
    exact (congrArg List.Nodup hkeys).mpr m.toAList.nodupKeys⟩⟩

/-- Keep the entries that satisfy a test. -/
def retain (m : FinMap K V) (keep : K → V → Bool) : FinMap K V :=
  ⟨⟨m.toAList.entries.filter fun e => keep e.1 e.2, m.toAList.nodupKeys.sublist filter_sublist⟩⟩

theorem keys_nodup (m : FinMap K V) : m.keys.Nodup := m.toAList.keys_nodup

theorem size_eq_length_keys (m : FinMap K V) : m.size = m.keys.length := by
  simp [size, values, keys, AList.keys, List.keys]

/-- The sum of a weight over all values. -/
def total (m : FinMap K V) (weight : V → Nat) : Nat := (m.values.map weight).sum

/-- Counting the values that pass a test is a sum of ones. -/
theorem length_filter_values (m : FinMap K V) (p : V → Bool) :
    (m.values.filter p).length = m.total fun v => if p v then 1 else 0 := by
  rw [total, ← countP_eq_length_filter]
  induction m.values with
  | nil => rfl
  | cons v rest ih => rw [countP_cons, map_cons, sum_cons, ih, Nat.add_comm]

variable [DecidableEq K]

/-- The value of a key. -/
def get (m : FinMap K V) (k : K) : Option V := m.toAList.lookup k

/-- Whether a key has a value. -/
def contains (m : FinMap K V) (k : K) : Bool := (m.get k).isSome

/-- Give a key a value, replacing the one it had. -/
def insert (m : FinMap K V) (k : K) (v : V) : FinMap K V := ⟨m.toAList.insert k v⟩

/-- Take a key out. -/
def remove (m : FinMap K V) (k : K) : FinMap K V := ⟨m.toAList.erase k⟩

/-- Edit the value of a key, when it has one. -/
def modify (m : FinMap K V) (k : K) (f : V → V) : FinMap K V :=
  m.mapKV fun k' v => if k' = k then f v else v

/-- Take a list of keys out, one after the other. -/
def removeAll (m : FinMap K V) (ks : List K) : FinMap K V := ks.foldl remove m

@[simp]
theorem get_empty (k : K) : (∅ : FinMap K V).get k = none := rfl

section

variable (m : FinMap K V)
include m

theorem get_insert (k k' : K) (v : V) :
    (m.insert k v).get k' = if k' = k then some v else m.get k' := by
  by_cases hk : k' = k
  · subst hk
    simp [insert, get]
  · simp [insert, get, hk]

@[simp]
theorem get_insert_self (k : K) (v : V) : (m.insert k v).get k = some v := by simp [get_insert]

theorem get_remove (k k' : K) : (m.remove k).get k' = if k' = k then none else m.get k' := by
  by_cases hk : k' = k
  · subst hk
    simp [remove, get]
  · simp [remove, get, hk]

theorem mem_entries_iff (k : K) (v : V) :
    (⟨k, v⟩ : Sigma fun _ : K => V) ∈ m.toAList.entries ↔ m.get k = some v := by
  rw [get, AList.lookup, ← Option.mem_def, mem_dlookup_iff m.toAList.nodupKeys]

theorem get_mapKV (f : K → V → V) (k : K) : (m.mapKV f).get k = (m.get k).map (f k) := by
  ext v
  rw [← mem_entries_iff, Option.map_eq_some_iff]
  constructor
  · intro hmem
    obtain ⟨e, he, heq⟩ := List.mem_map.mp hmem
    obtain ⟨k', v'⟩ := e
    cases heq
    exact ⟨v', (m.mem_entries_iff k' v').mp he, rfl⟩
  · rintro ⟨v', hget, rfl⟩
    exact List.mem_map.mpr ⟨⟨k, v'⟩, (m.mem_entries_iff k v').mpr hget, rfl⟩

theorem get_modify (k k' : K) (f : V → V) :
    (m.modify k f).get k' = if k' = k then (m.get k').map f else m.get k' := by
  rw [modify, get_mapKV]
  split <;> simp

theorem get_retain (keep : K → V → Bool) (k : K) :
    (m.retain keep).get k = (m.get k).filter (keep k) := by
  ext v
  rw [← mem_entries_iff, Option.filter_eq_some_iff]
  simp only [retain, mem_filter, mem_entries_iff]

/-- A test of the key alone. -/
theorem get_retain_key (keep : K → Bool) (k : K) :
    (m.retain fun k _ => keep k).get k = if keep k then m.get k else none := by
  rw [get_retain]
  cases m.get k with
  | none => simp
  | some v => cases hkeep : keep k <;> simp [Option.filter]

end

theorem get_removeAll (ks : List K) (m : FinMap K V) (k : K) :
    (m.removeAll ks).get k = if k ∈ ks then none else m.get k := by
  induction ks generalizing m with
  | nil => simp [removeAll]
  | cons k₀ rest ih =>
    have hstep : m.removeAll (k₀ :: rest) = (m.remove k₀).removeAll rest := rfl
    rw [hstep, ih, get_remove]
    by_cases hrest : k ∈ rest
    · simp [hrest]
    · simp [hrest]

section

variable {m m' : FinMap K V} {P : K → V → Prop} {k : K} {v : V}

/-- What holds of the entry a map gained, and of those it had, holds of all its entries. -/
theorem forall_of_insert (hget : ∀ k', m'.get k' = if k' = k then some v else m.get k')
    (hnew : P k v) (hold : ∀ k' v', m.get k' = some v' → P k' v') :
    ∀ k' v', m'.get k' = some v' → P k' v' := by
  intro k' v' h
  rw [hget] at h
  split_ifs at h with hk
  · cases h
    exact hk ▸ hnew
  · exact hold k' v' h

theorem forall_insert (hnew : P k v) (hold : ∀ k' v', m.get k' = some v' → P k' v') :
    ∀ k' v', (m.insert k v).get k' = some v' → P k' v' :=
  forall_of_insert (fun k' => m.get_insert k k' v) hnew hold

theorem forall_removeAll (ks : List K) (hold : ∀ k' v', m.get k' = some v' → P k' v') :
    ∀ k' v', (m.removeAll ks).get k' = some v' → P k' v' := by
  intro k' v' h
  rw [get_removeAll] at h
  split_ifs at h
  exact hold k' v' h

theorem forall_remove (k : K) (hold : ∀ k' v', m.get k' = some v' → P k' v') :
    ∀ k' v', (m.remove k).get k' = some v' → P k' v' :=
  forall_removeAll [k] hold

/-- An entry is still there when another took its place of which as much holds. -/
theorem exists_replace {P : V → Prop} {v₀ : V} (hget : m.get k = some v₀) (hnew : P v₀ → P v)
    {k' : K} (h : ∃ v', m.get k' = some v' ∧ P v') :
    ∃ v', (m.insert k v).get k' = some v' ∧ P v' := by
  obtain ⟨v', hv', hP⟩ := h
  rw [get_insert]
  split_ifs with hk
  · rw [hk, hget, Option.some.injEq] at hv'
    exact ⟨v, rfl, hnew (hv' ▸ hP)⟩
  · exact ⟨v', hv', hP⟩

end

theorem mem_values_iff (m : FinMap K V) (v : V) : v ∈ m.values ↔ ∃ k, m.get k = some v := by
  simp only [values, mem_map]
  constructor
  · rintro ⟨⟨k, v'⟩, he, rfl⟩
    exact ⟨k, (m.mem_entries_iff k v').mp he⟩
  · rintro ⟨k, hget⟩
    exact ⟨⟨k, v⟩, (m.mem_entries_iff k v).mpr hget, rfl⟩

theorem mem_keys_iff (m : FinMap K V) (k : K) : k ∈ m.keys ↔ ∃ v, m.get k = some v := by
  rw [keys, ← AList.mem_keys, ← AList.lookup_isSome, Option.isSome_iff_exists]
  rfl

theorem contains_iff (m : FinMap K V) (k : K) : m.contains k = true ↔ ∃ v, m.get k = some v := by
  rw [contains, Option.isSome_iff_exists]

theorem contains_eq_false_iff (m : FinMap K V) (k : K) : m.contains k = false ↔ m.get k = none := by
  rw [contains, Option.isSome_eq_false_iff, Option.isNone_iff_eq_none]

/-- When each value carries its key, the values listed by that key are the keys. -/
theorem map_values_eq_keys (m : FinMap K V) (key : V → K)
    (hkey : ∀ k v, m.get k = some v → key v = k) : m.values.map key = m.keys := by
  simp only [values, keys, AList.keys, List.keys, map_map]
  apply map_congr_left
  rintro ⟨k, v⟩ he
  exact hkey k v ((m.mem_entries_iff k v).mp he)

/-- Each entry of the second map goes back to one of the first under the same key, or
is new. -/
def Grows (m : FinMap K V) (rel : V → V → Prop) (new : K → V → Prop) (m' : FinMap K V) : Prop :=
  ∀ k v', m'.get k = some v' → (∃ v, m.get k = some v ∧ rel v v') ∨ new k v'

namespace Grows

variable {rel : V → V → Prop} {new new' new'' : K → V → Prop} {m m' m'' : FinMap K V}

/-- An entry that was new in the middle is new at the end. -/
theorem trans (htrans : ∀ u v w, rel u v → rel v w → rel u w) (h : m.Grows rel new m')
    (h' : m'.Grows rel new' m'') (hclosed : ∀ k v v', new k v → rel v v' → new'' k v')
    (hsub : ∀ k v, new' k v → new'' k v) : m.Grows rel new'' m'' := by
  intro k v'' hget
  rcases h' k v'' hget with ⟨v', hv', hrel'⟩ | hnew
  · rcases h k v' hv' with ⟨v, hv, hrel⟩ | hnew
    · exact Or.inl ⟨v, hv, htrans v v' v'' hrel hrel'⟩
    · exact Or.inr (hclosed k v' v'' hnew hrel')
  · exact Or.inr (hsub k v'' hnew)

variable (hrefl : ∀ v, rel v v)
include hrefl

theorem refl (m : FinMap K V) : m.Grows rel new m := fun _ v' h => Or.inl ⟨v', h, hrefl v'⟩

theorem insert (m : FinMap K V) {k : K} {v : V} (hnew : new k v) :
    m.Grows rel new (m.insert k v) :=
  forall_insert (.inr hnew) (refl hrefl m)

theorem modify (m : FinMap K V) (k : K) {f : V → V} (hf : ∀ v, rel v (f v)) :
    m.Grows rel new (m.modify k f) := by
  intro k' v' hget
  rw [get_modify] at hget
  split_ifs at hget
  · obtain ⟨v, hv, rfl⟩ := Option.map_eq_some_iff.mp hget
    exact Or.inl ⟨v, hv, hf v⟩
  · exact Or.inl ⟨v', hget, hrefl v'⟩

theorem remove (m : FinMap K V) (k : K) : m.Grows rel new (m.remove k) :=
  forall_remove k (refl hrefl m)

theorem removeAll (m : FinMap K V) (ks : List K) : m.Grows rel new (m.removeAll ks) :=
  forall_removeAll ks (refl hrefl m)

end Grows

/-- No two keys have values with the same label. -/
def DistinctBy {L : Type} (m : FinMap K V) (label : V → L) : Prop :=
  ∀ k k' v v', m.get k = some v → m.get k' = some v' → label v = label v' → k = k'

namespace DistinctBy

variable {L : Type} {m m' : FinMap K V} {label : V → L}

/-- Values that go, or change under their label. -/
theorem of_sub (h : m.DistinctBy label)
    (hsub : ∀ k v', m'.get k = some v' → ∃ v, m.get k = some v ∧ label v' = label v) :
    m'.DistinctBy label := by
  intro k l v' w' hv' hw' heq
  obtain ⟨v, hv, hlabel⟩ := hsub k v' hv'
  obtain ⟨w, hw, hlabel'⟩ := hsub l w' hw'
  rw [hlabel, hlabel'] at heq
  exact h k l v w hv hw heq

/-- A value whose label no other key has. -/
theorem insert (h : m.DistinctBy label) {k : K} {v : V}
    (hfree : ∀ l w, m.get l = some w → l ≠ k → label w ≠ label v) :
    (m.insert k v).DistinctBy label := by
  intro a b x y hx hy heq
  rw [get_insert] at hx hy
  split_ifs at hx hy with ha hb hb
  · rw [ha, hb]
  · cases hx
    exact absurd heq.symm (hfree b y hy hb)
  · cases hy
    exact absurd heq (hfree a x hx ha)
  · exact h a b x y hx hy heq

/-- A value that changes to a label no other key has. -/
theorem modify (h : m.DistinctBy label) {k : K} {f : V → V} {v : V} (hv : m.get k = some v)
    (hfree : ∀ l w, m.get l = some w → l ≠ k → label w ≠ label (f v)) :
    (m.modify k f).DistinctBy label := by
  refine (h.insert hfree).of_sub fun l w' hw' => ?_
  rw [get_modify] at hw'
  rw [get_insert]
  split_ifs at hw' with hl
  · rw [hl, hv] at hw'
    cases hw'
    exact ⟨f v, if_pos hl, rfl⟩
  · exact ⟨w', by rw [if_neg hl, hw'], rfl⟩

end DistinctBy

theorem total_eq_sum (m : FinMap K V) (weight : V → Nat) :
    m.total weight = ∑ k ∈ m.keys.toFinset, ((m.get k).map weight).getD 0 := by
  rw [sum_toFinset _ m.keys_nodup]
  simp only [total, values, keys, AList.keys, List.keys, map_map]
  congr 1
  apply map_congr_left
  rintro ⟨k, v⟩ he
  simp [(m.mem_entries_iff k v).mp he]

/-- A new key adds its weight. -/
theorem total_insert (m : FinMap K V) (weight : V → Nat) {k : K} (v : V)
    (hnew : m.get k = none) : (m.insert k v).total weight = weight v + m.total weight := by
  have hmem : k ∉ m.toAList := AList.lookup_eq_none.mp hnew
  rw [total, values, insert, AList.entries_insert_of_notMem hmem]
  rfl

/-- A map each of whose values is matched by one at least as heavy under the same
key of another map weighs no more than it. -/
theorem total_le_total (m m' : FinMap K V) (weight weight' : V → Nat)
    (hle : ∀ k v, m.get k = some v → ∃ v', m'.get k = some v' ∧ weight v ≤ weight' v') :
    m.total weight ≤ m'.total weight' := by
  rw [total_eq_sum, total_eq_sum]
  have hsub : m.keys.toFinset ⊆ m'.keys.toFinset := by
    intro k hk
    rw [mem_toFinset, mem_keys_iff] at hk ⊢
    obtain ⟨v, hv⟩ := hk
    obtain ⟨v', hv', -⟩ := hle k v hv
    exact ⟨v', hv'⟩
  calc ∑ k ∈ m.keys.toFinset, ((m.get k).map weight).getD 0
      ≤ ∑ k ∈ m.keys.toFinset, ((m'.get k).map weight').getD 0 := by
        apply Finset.sum_le_sum
        intro k hk
        rw [mem_toFinset, mem_keys_iff] at hk
        obtain ⟨v, hv⟩ := hk
        obtain ⟨v', hv', hw⟩ := hle k v hv
        simpa [hv, hv'] using hw
    _ ≤ ∑ k ∈ m'.keys.toFinset, ((m'.get k).map weight').getD 0 := Finset.sum_le_sum_of_subset hsub

/-- The values under some of the keys weigh no more than all together. -/
theorem sum_le_total (m : FinMap K V) (weight : V → Nat) {ks : List K} (hnodup : ks.Nodup) :
    (ks.map fun k => ((m.get k).map weight).getD 0).sum ≤ m.total weight := by
  rw [total_eq_sum, ← sum_toFinset _ hnodup]
  refine Finset.sum_le_sum_of_ne_zero fun k _ hne => ?_
  rw [mem_toFinset, mem_keys_iff]
  cases hk : m.get k with
  | none => simp [hk] at hne
  | some v => exact ⟨v, rfl⟩

end FinMap
