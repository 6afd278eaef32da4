/-
# What readers are shown is the map

Readers of a status table get its records in order, each with the app it inherits, and a
summary. All of it is determined by the map the table follows: sorting the entries lists the
map, the search for an app goes through exactly the ancestors of an id from the nearest one
outwards, and the summary leads with the first record of the list and counts them all.
-/

import Shux.ProgramStatus.Reference

namespace Shux.ProgramStatus

open List

namespace Reference

theorem encloses_refl (id : Option RecordId) : Encloses id id := by
  cases id with
  | none => trivial
  | some id => exact prefix_refl _

theorem encloses_none_iff (id : Option RecordId) : Encloses id none ↔ id = none := by
  cases id with
  | none => exact ⟨fun _ => rfl, fun _ => trivial⟩
  | some id => exact ⟨False.elim, fun h => by cases h⟩

/-- What encloses a path is the path itself or encloses its parent. -/
theorem encloses_some_iff (outer : Option RecordId) (id : RecordId) :
    Encloses outer (some id) ↔ outer = some id ∨ Encloses outer id.parent := by
  cases outer with
  | none => exact ⟨fun _ => Or.inr trivial, fun _ => trivial⟩
  | some a =>
    rw [Option.some.injEq]
    show a.segments <+: id.segments ↔ _
    cases hparent : id.parent with
    | none =>
      have hsegments := RecordId.segments_of_parent_eq_none hparent
      constructor
      · intro h
        rw [hsegments, ← nil_append [_], prefix_concat_iff, prefix_nil] at h
        exact Or.inl (RecordId.segments_injective
          ((h.resolve_right a.segments_ne_nil).trans hsegments.symm))
      · rintro (rfl | h)
        · exact prefix_refl _
        · exact h.elim
    | some p =>
      obtain ⟨segment, hsegments⟩ := RecordId.segments_parent hparent
      rw [hsegments, prefix_concat_iff, ← hsegments, RecordId.segments_injective.eq_iff]
      exact Iff.rfl

end Reference

namespace StatusTable.Tracks

variable {t : StatusTable} {m : Reference}

theorem storedApp (h : t.Tracks m) (id : Option RecordId) : t.storedApp id = m.app id := by
  unfold StatusTable.storedApp Reference.app
  cases hfind : t.entries.find? (fun e => e.id == id) with
  | some e =>
    obtain rfl : e.id = id := eq_of_beq (List.find?_some (p := fun e : Entry => e.id == id) hfind)
    rw [h.holds.get_of_mem (mem_of_find?_eq_some hfind)]
    rfl
  | none =>
    rw [(h.holds.get_eq_none_iff id).mpr]
    · rfl
    · intro hmem
      obtain ⟨e, he, rfl⟩ := mem_map.mp hmem
      exact List.find?_eq_none.mp hfind e he (beq_self_eq_true _)

/-- The search finds the nearest app. -/
theorem searchApp (h : t.Tracks m) (id : Option RecordId) : m.ShowsApp id (t.searchApp id) := by
  induction id using StatusTable.searchApp.induct t with
  | case1 id app hstored =>
    rw [StatusTable.searchApp.eq_def, hstored]
    exact ⟨id, Reference.encloses_refl id, h.storedApp id ▸ hstored, fun _ hother _ => hother⟩
  | case2 hstored =>
    rw [StatusTable.searchApp.eq_def, hstored]
    intro other hother
    obtain rfl := (Reference.encloses_none_iff other).mp hother
    rw [← h.storedApp, hstored]
  | case3 id hstored ih =>
    rw [StatusTable.searchApp.eq_def, hstored]
    rw [h.storedApp] at hstored
    show m.ShowsApp (some id) (t.searchApp id.parent)
    cases hsearch : t.searchApp id.parent with
    | some app =>
      rw [hsearch] at ih
      obtain ⟨source, hsource, happ, hnearest⟩ := ih
      refine ⟨source, (Reference.encloses_some_iff _ _).mpr (Or.inr hsource), happ, ?_⟩
      intro other hother hne
      rcases (Reference.encloses_some_iff _ _).mp hother with rfl | hother
      · exact absurd hstored hne
      · exact hnearest other hother hne
    | none =>
      rw [hsearch] at ih
      intro other hother
      rcases (Reference.encloses_some_iff _ _).mp hother with rfl | hother
      · exact hstored
      · exact ih other hother

theorem effectiveApp (h : t.Tracks m) {e : Entry} (he : e ∈ t.entries) :
    m.ShowsApp e.id (t.effectiveApp e) := by
  have hstored : t.storedApp e.id = e.record.app := by
    rw [h.storedApp, Reference.app, h.holds.get_of_mem he]
    rfl
  have hsearch : t.effectiveApp e = t.searchApp e.id := by
    unfold StatusTable.effectiveApp
    rw [StatusTable.searchApp.eq_def, hstored]
  rw [hsearch]
  exact h.searchApp e.id

end StatusTable.Tracks

/-- An entry of a table as one of the map. -/
def Entry.pair (e : Entry) : Option RecordId × Slot := (e.id, e.slot)

theorem Entry.orderKey_lt_iff (e e' : Entry) :
    e.orderKey < e'.orderKey ↔ Reference.Precedes e.pair e'.pair := by
  unfold Entry.orderKey ProgramStatus.orderKey Reference.Precedes Entry.pair Entry.slot
  rw [Prod.Lex.toLex_lt_toLex, Prod.Lex.toLex_lt_toLex]
  cases e.id <;> cases e'.id <;>
    simp [OrderDual.toDual_lt_toDual, eq_comm]

theorem Entry.orderKey_le_trans (a b c : Entry) (hab : decide (a.orderKey ≤ b.orderKey) = true)
    (hbc : decide (b.orderKey ≤ c.orderKey) = true) : decide (a.orderKey ≤ c.orderKey) = true :=
  decide_eq_true (le_trans (of_decide_eq_true hab) (of_decide_eq_true hbc))

theorem Entry.orderKey_le_total (a b : Entry) :
    (decide (a.orderKey ≤ b.orderKey) || decide (b.orderKey ≤ a.orderKey)) = true := by
  rw [Bool.or_eq_true, decide_eq_true_eq, decide_eq_true_eq]
  exact le_total _ _

/-- Entries that changed at different times have different places in the order. -/
theorem Entry.updated_of_orderKey {e e' : Entry} (h : e.orderKey = e'.orderKey) :
    e.updated = e'.updated := by
  unfold Entry.orderKey ProgramStatus.orderKey at h
  exact congrArg (fun key => OrderDual.ofDual (ofLex (ofLex key).2).2) h

namespace StatusTable

/-- The entries in the order readers see them. -/
def sorted (t : StatusTable) : List Entry :=
  t.entries.mergeSort fun e e' => decide (e.orderKey ≤ e'.orderKey)

theorem sorted_perm (t : StatusTable) : t.sorted ~ t.entries := mergeSort_perm _ _

theorem pairwise_sorted {t : StatusTable} (h : Sound t.entries t.seq) :
    t.sorted.Pairwise fun e e' => e.orderKey < e'.orderKey := by
  have hle : t.sorted.Pairwise fun e e' => decide (e.orderKey ≤ e'.orderKey) = true :=
    pairwise_mergeSort Entry.orderKey_le_trans Entry.orderKey_le_total t.entries
  have hne : t.sorted.Pairwise fun e e' => e.updated ≠ e'.updated :=
    pairwise_map.mp ((t.sorted_perm.map Entry.updated).nodup_iff.mpr h.updated)
  exact (hle.and hne).imp fun ⟨hle, hne⟩ =>
    lt_of_le_of_ne (of_decide_eq_true hle) fun heq => hne (Entry.updated_of_orderKey heq)

namespace Tracks

variable {t : StatusTable} {m : Reference}

/-- The sorted entries list the map. -/
theorem lists (h : t.Tracks m) : m.Lists (t.sorted.map Entry.pair) where
  sorted := by
    rw [pairwise_map]
    exact (pairwise_sorted h.sound).imp fun hlt => (Entry.orderKey_lt_iff _ _).mp hlt
  complete := fun id slot => by
    rw [mem_map, h.holds id slot]
    constructor
    · rintro ⟨e, he, heq⟩
      obtain ⟨rfl, rfl⟩ := Prod.mk.inj heq
      exact ⟨e, t.sorted_perm.mem_iff.mp he, rfl, rfl⟩
    · rintro ⟨e, he, rfl, rfl⟩
      exact ⟨e, t.sorted_perm.mem_iff.mpr he, rfl⟩

theorem displays (h : t.Tracks m) {e : Entry} (he : e ∈ t.entries) :
    m.Displays e.pair (t.view e) where
  id := rfl
  state := rfl
  kind := rfl
  progress := rfl
  app := h.effectiveApp he
  title := rfl
  msg := rfl
  reportedGeneration := rfl
  reportedIn := rfl

theorem records (h : t.Tracks m) :
    List.Forall₂ (fun view entry => m.Displays entry view) t.records (t.sorted.map Entry.pair) := by
  show List.Forall₂ _ (t.sorted.map t.view) _
  rw [List.forall₂_map_left_iff, List.forall₂_map_right_iff, List.forall₂_same]
  exact fun e he => h.displays (t.sorted_perm.mem_iff.mp he)

end Tracks

/-- Counting stops at the largest sixteen-bit number. -/
theorem of_foldl_add (entries : List Entry) (counts : StateCounts) (state : State)
    (h : counts.of state + entries.length ≤ u16Max) :
    (entries.foldl (fun counts e => counts.add e.record.state) counts).of state =
      counts.of state + entries.countP fun e => e.record.state == state := by
  induction entries generalizing counts with
  | nil => rfl
  | cons e entries ih =>
    rw [length_cons] at h
    have hadd := counts.of_add e.record.state state
    rw [foldl_cons, countP_cons]
    by_cases heq : e.record.state = state
    · rw [if_pos heq, Nat.min_eq_left (by omega)] at hadd
      rw [ih _ (by omega), hadd, if_pos (by rw [heq]; exact beq_self_eq_true _)]
      omega
    · rw [if_neg heq] at hadd
      rw [ih _ (by omega), hadd, if_neg (by simpa using heq), Nat.add_zero]

namespace Tracks

variable {t : StatusTable} {m : Reference}

theorem counts (h : t.Tracks m) (state : State) :
    (t.entries.foldl (fun counts e => counts.add e.record.state) StateCounts.zero).of state =
      (t.sorted.map Entry.pair).countP fun entry => entry.2.record.state == state := by
  have hfits : StateCounts.zero.of state + t.entries.length ≤ u16Max := by
    rw [StateCounts.of_zero, Nat.zero_add]
    exact Nat.le_trans h.cap (by decide)
  rw [of_foldl_add _ _ _ hfits, StateCounts.of_zero, Nat.zero_add, countP_map,
    ← t.sorted_perm.countP_eq]
  rfl

/-- The least entry is the first in order. -/
theorem sorted_eq_cons (h : t.Tracks m) {top : Entry}
    (htop : t.entries.argmin Entry.orderKey = some top) : ∃ rest, t.sorted = top :: rest := by
  have hmem : top ∈ t.sorted := t.sorted_perm.mem_iff.mpr (argmin_mem htop)
  have hpairwise := pairwise_sorted h.sound
  cases hsorted : t.sorted with
  | nil =>
    rw [hsorted] at hmem
    cases hmem
  | cons first rest =>
    rw [hsorted] at hmem hpairwise
    rcases mem_cons.mp hmem with rfl | hmem
    · exact ⟨rest, rfl⟩
    · have hfirst : first ∈ t.entries :=
        t.sorted_perm.mem_iff.mp (hsorted ▸ mem_cons_self)
      exact absurd ((pairwise_cons.mp hpairwise).1 top hmem)
        (not_lt.mpr (le_of_mem_argmin hfirst htop))

theorem summary (h : t.Tracks m) :
    match t.summary with
    | none => t.sorted.map Entry.pair = []
    | some summary => m.Summarizes (t.sorted.map Entry.pair) summary := by
  unfold StatusTable.summary
  cases htop : t.entries.argmin Entry.orderKey with
  | none =>
    rw [argmin_eq_none] at htop
    show t.sorted.map Entry.pair = []
    rw [map_eq_nil_iff, ← length_eq_zero_iff, t.sorted_perm.length_eq, htop]
    rfl
  | some top =>
    obtain ⟨rest, hsorted⟩ := h.sorted_eq_cons htop
    refine ⟨⟨top.pair, rest.map Entry.pair, ?_, rfl, rfl, rfl, rfl, ?_⟩, h.counts⟩
    · rw [hsorted, map_cons]
    · exact h.effectiveApp (argmin_mem htop)

theorem refines (h : t.Tracks m) : t.Refines m where
  holds := h.holds
  nodup := h.sound.ids
  cap := h.cap
  shows := ⟨t.sorted.map Entry.pair, h.lists, h.records, h.summary⟩

end Tracks

/-- A status table refines the map of latest records: after any operations it is a map those
operations lead to, each further operation is a step of that map, and the revision moves
exactly when the step changes the records stored. -/
theorem run_refines (ops : List Op) :
    ∃ m, Reference.Run ops m ∧ (run ops).Refines m ∧
      ∀ op, ∃ m', m.Step op m' ∧ ((run ops).step op).Refines m' ∧
        (run ops).revision ≤ ((run ops).step op).revision ∧
        ((run ops).revision < ((run ops).step op).revision ↔
          ∃ id, m'.content id ≠ m.content id) := by
  obtain ⟨m, hrun, htracks⟩ := Tracks.run ops
  refine ⟨m, hrun, htracks.refines, fun op => ?_⟩
  obtain ⟨m', hstep, htracks', hmoves⟩ := htracks.step op
  exact ⟨m', hstep, htracks'.refines, hmoves⟩

end StatusTable

end Shux.ProgramStatus
