/-
# Search in copy mode

A search should put the cursor on the first cell of the next occurrence, in cyclic reading order.
The scan counts scalars where cells are meant, and it does not come back to the cursor's own line.
Of the occurrences that it does not pass over, it goes to the first one on its way, and the search
is right exactly if that leads to the next one.
-/

import Shux.Ui.CopyAnchor

namespace Shux.Ui

open Chunks Vt Find

/-- The column of the cell that shows each scalar of a row's text. -/
def columnsFrom : Nat → List Cell → List Nat
  | _, [] => []
  | i, cell :: rest => List.replicate (shownText cell).length i ++ columnsFrom (i + 1) rest

/-- The column of the cell that shows a scalar of a row's text. -/
def cellOf (row : Row) (paneCols k : Nat) : Nat :=
  (columnsFrom 0 (row.cells.take paneCols)).getD k 0

/-- A query occurs in a line, at a scalar of the line's text. -/
def Occurs (vt : Presented) (paneCols : Nat) (query : Str) (o : Nat × Nat) : Prop :=
  ∃ row, vt.row o.1 = some row ∧ At query (rowText row paneCols) o.2

/-- The line and the column at which an occurrence begins. -/
def placeOf (vt : Presented) (paneCols : Nat) (o : Nat × Nat) : Nat × Nat :=
  (o.1, ((vt.row o.1).map fun row => cellOf row paneCols o.2).getD 0)

def SearchDirection.Ahead (direction : SearchDirection) (a b : Nat × Nat) : Prop :=
  match direction with
  | .forward => a.1 < b.1 ∨ (a.1 = b.1 ∧ a.2 < b.2)
  | .backward => b.1 < a.1 ∨ (b.1 = a.1 ∧ b.2 < a.2)

section

variable (vt : Presented) (paneCols : Nat) (query : Str) (direction : SearchDirection)
  (cursor : Nat × Nat)

/-- One occurrence comes sooner than another on a turn that begins at the cursor. -/
def Sooner (o o' : Nat × Nat) : Prop :=
  (direction.Ahead cursor (placeOf vt paneCols o) ∧
    ¬ direction.Ahead cursor (placeOf vt paneCols o')) ∨
  ((direction.Ahead cursor (placeOf vt paneCols o) ↔
    direction.Ahead cursor (placeOf vt paneCols o')) ∧ direction.Ahead o o')

/-- The next occurrence, other than one the cursor is on. -/
structure IsNext (o : Nat × Nat) : Prop where
  occurs : Occurs vt paneCols query o
  other : placeOf vt paneCols o ≠ cursor
  first : ∀ o', Occurs vt paneCols query o' → placeOf vt paneCols o' ≠ cursor → o' ≠ o →
    Sooner vt paneCols direction cursor o o'

/-- An occurrence that the scan takes into account, by the scalars of its line. -/
def Scanned (o : Nat × Nat) : Prop :=
  match direction with
  | .forward => o.1 = cursor.1 → cursor.2 + 1 ≤ o.2
  | .backward => o.2 + query.length ≤ if o.1 = cursor.1 then cursor.2 else paneCols

end

/-- What a search should do from a state. -/
def Correct (vt : Presented) (paneCols paneRows : Nat) (state : CopyModeState) (query : Str)
    (direction : SearchDirection) : Prop :=
  let cursor := (currentRow vt paneRows state, state.cursor.1)
  let out := findAndFocus state paneCols paneRows (some vt) query direction
  (∃ o, IsNext vt paneCols query direction cursor o ∧ out.2 = true ∧
    absolute vt paneRows out.1 out.1.cursor = placeOf vt paneCols o ∧ out.1.cursor.2 < paneRows) ∨
  ((∀ o, Occurs vt paneCols query o → placeOf vt paneCols o = cursor) ∧ out = (state, false))

section

variable {row : Row} {paneCols : Nat} {query : Str} {k n : Nat}

theorem searchRowForward_some {startCol : Nat}
    (h : searchRowForward row paneCols startCol query = some (k, n)) :
    At query (rowText row paneCols) k ∧ startCol ≤ k ∧
      ∀ k', At query (rowText row paneCols) k' → startCol ≤ k' → k ≤ k' := by
  unfold searchRowForward at h
  dsimp only at h
  split_ifs at h
  obtain ⟨rel, hrel, heq⟩ := Option.map_eq_some_iff.mp h
  cases heq
  obtain ⟨hat, hfirst⟩ := find_eq_some hrel
  refine ⟨Find.at_drop.mp hat, Nat.le_add_right _ _, fun k' hat' hle => ?_⟩
  obtain ⟨rel', rfl⟩ := Nat.exists_eq_add_of_le hle
  exact Nat.add_le_add_left (hfirst rel' (Find.at_drop.mpr hat')) _

theorem searchRowForward_none {startCol : Nat} (hne : query ≠ [])
    (h : searchRowForward row paneCols startCol query = none)
    (hat : At query (rowText row paneCols) k) : ¬ startCol ≤ k := by
  intro hle
  have hlt := lt_of_at hne hat
  unfold searchRowForward at h
  dsimp only at h
  rw [if_neg (by omega)] at h
  obtain ⟨rel, rfl⟩ := Nat.exists_eq_add_of_le hle
  exact find_eq_none hne (Option.map_eq_none_iff.mp h) rel (Find.at_drop.mpr hat)

theorem searchRowBackward_some {beforeCol : Nat} (hne : query ≠ [])
    (h : searchRowBackward row paneCols beforeCol query = some (k, n)) :
    At query (rowText row paneCols) k ∧ k + query.length ≤ beforeCol ∧
      ∀ k', At query (rowText row paneCols) k' → k' + query.length ≤ beforeCol → k' ≤ k := by
  unfold searchRowBackward at h
  obtain ⟨col, hcol, heq⟩ := Option.map_eq_some_iff.mp h
  cases heq
  obtain ⟨hat, hlast⟩ := rfind_eq_some hne hcol
  obtain ⟨hat, hle⟩ := (at_take hne).mp hat
  exact ⟨hat, hle, fun k' hat' hle' => hlast k' ((at_take hne).mpr ⟨hat', hle'⟩)⟩

theorem searchRowBackward_none {beforeCol : Nat} (hne : query ≠ [])
    (h : searchRowBackward row paneCols beforeCol query = none)
    (hat : At query (rowText row paneCols) k) : ¬ k + query.length ≤ beforeCol := fun hle =>
  rfind_eq_none hne (Option.map_eq_none_iff.mp h) k ((at_take hne).mpr ⟨hat, hle⟩)

/-- One line of the scan. On the cursor's own line it begins at the cursor. -/
def searchRow (direction : SearchDirection) (row : Row) (paneCols : Nat) (own : Bool)
    (currentCol : Nat) (query : Str) : Option Nat :=
  match direction with
  | .forward =>
    (searchRowForward row paneCols (if own then currentCol + 1 else 0) query).map Prod.fst
  | .backward =>
    (searchRowBackward row paneCols (if own then currentCol else paneCols) query).map Prod.fst

variable {direction : SearchDirection} {cursor : Nat × Nat} {r : Nat}

theorem searchRow_some (hne : query ≠ [])
    (h : searchRow direction row paneCols (decide (r = cursor.1)) cursor.2 query = some k) :
    At query (rowText row paneCols) k ∧ Scanned paneCols query direction cursor (r, k) ∧
      ∀ k', At query (rowText row paneCols) k' →
        Scanned paneCols query direction cursor (r, k') →
          k' = k ∨ direction.Ahead (r, k) (r, k') := by
  cases direction with
  | forward =>
    obtain ⟨⟨k₁, n⟩, hfound, rfl⟩ := Option.map_eq_some_iff.mp h
    obtain ⟨hat, hle, hfirst⟩ := searchRowForward_some hfound
    refine ⟨hat, fun heq => ?_, fun k' hat' hscan => ?_⟩
    · replace heq : r = cursor.1 := heq
      rw [if_pos (decide_eq_true heq)] at hle
      exact hle
    · have hle' : (if decide (r = cursor.1) = true then cursor.2 + 1 else 0) ≤ k' := by
        split_ifs with hown
        · exact hscan (of_decide_eq_true hown)
        · exact Nat.zero_le _
      rcases Nat.eq_or_lt_of_le (hfirst k' hat' hle') with heq | hlt
      · exact .inl heq.symm
      · exact .inr (.inr ⟨rfl, hlt⟩)
  | backward =>
    obtain ⟨⟨k₁, n⟩, hfound, rfl⟩ := Option.map_eq_some_iff.mp h
    obtain ⟨hat, hle, hlast⟩ := searchRowBackward_some hne hfound
    simp only [decide_eq_true_eq] at hle hlast
    refine ⟨hat, hle, fun k' hat' hscan => ?_⟩
    rcases Nat.eq_or_lt_of_le (hlast k' hat' hscan) with heq | hlt
    · exact .inl heq
    · exact .inr (.inr ⟨rfl, hlt⟩)

theorem searchRow_none (hne : query ≠ [])
    (h : searchRow direction row paneCols (decide (r = cursor.1)) cursor.2 query = none)
    (hat : At query (rowText row paneCols) k) :
    ¬ Scanned paneCols query direction cursor (r, k) := by
  intro hscan
  cases direction with
  | forward =>
    refine searchRowForward_none hne (Option.map_eq_none_iff.mp h) hat ?_
    split_ifs with hown
    · exact hscan (of_decide_eq_true hown)
    · exact Nat.zero_le _
  | backward =>
    refine searchRowBackward_none hne (Option.map_eq_none_iff.mp h) hat ?_
    simp only [decide_eq_true_eq]
    exact hscan

end

section

variable {direction : SearchDirection} {total current r step : Nat}

/-- The line of a step of the scan. -/
def rowAt (direction : SearchDirection) (total current step : Nat) : Nat :=
  match direction with
  | .forward => (current + step) % total
  | .backward => (current + total - step % total) % total

/-- The step of a line. -/
def turn (direction : SearchDirection) (total current r : Nat) : Nat :=
  match direction with
  | .forward => if current ≤ r then r - current else r + total - current
  | .backward => if r ≤ current then current - r else current + total - r

theorem mod_of_lt_double {n : Nat} (h : n < total + total) :
    n % total = if n < total then n else n - total := by
  split_ifs with hlt
  · exact Nat.mod_eq_of_lt hlt
  · rw [Nat.mod_eq_sub_mod (Nat.not_lt.mp hlt), Nat.mod_eq_of_lt (by omega)]

theorem turn_rowAt (hcurrent : current < total) (hstep : step < total) :
    rowAt direction total current step < total ∧
      turn direction total current (rowAt direction total current step) = step := by
  cases direction with
  | forward =>
    unfold rowAt turn
    dsimp only
    rw [mod_of_lt_double (by omega)]
    split_ifs <;> omega
  | backward =>
    unfold rowAt turn
    dsimp only
    rw [Nat.mod_eq_of_lt hstep, mod_of_lt_double (by omega)]
    split_ifs <;> omega

theorem rowAt_turn (hcurrent : current < total) (hr : r < total) :
    turn direction total current r < total ∧
      rowAt direction total current (turn direction total current r) = r := by
  have hlt : turn direction total current r < total := by
    unfold turn
    cases direction <;> dsimp only <;> split_ifs <;> omega
  refine ⟨hlt, ?_⟩
  cases direction with
  | forward =>
    unfold rowAt
    dsimp only
    rw [mod_of_lt_double (by omega)]
    unfold turn
    dsimp only
    split_ifs <;> omega
  | backward =>
    unfold rowAt
    dsimp only
    rw [Nat.mod_eq_of_lt hlt, mod_of_lt_double (by omega)]
    unfold turn at hlt ⊢
    dsimp only at hlt ⊢
    split_ifs <;> omega

theorem turn_eq_zero (hcurrent : current < total) (hr : r < total) :
    turn direction total current r = 0 ↔ r = current := by
  unfold turn
  cases direction <;> dsimp only <;> split_ifs <;> omega

end

section

variable (vt : Presented) (paneCols : Nat) (query : Str) (direction : SearchDirection)
  (cursor : Nat × Nat)
variable {o : Nat × Nat}
variable {o' : Nat × Nat}

/-- The scan of all lines. -/
def scanLines : Option (Nat × Nat) :=
  (List.range vt.totalLines).findSome? fun step =>
    let r := rowAt direction vt.totalLines cursor.1 step
    (vt.row r).bind fun row =>
      (searchRow direction row paneCols (decide (step = 0)) cursor.2 query).map fun k => (r, k)

theorem searchFrom_eq (paneRows : Nat) (state : CopyModeState) :
    searchFrom vt paneCols paneRows state query direction =
      scanLines vt paneCols query direction (currentRow vt paneRows state, state.cursor.1) := by
  cases direction with
  | forward =>
    unfold searchFrom searchForward scanLines searchRow rowAt
    simp only [decide_eq_true_eq, Option.map_map, Function.comp_def]
  | backward =>
    unfold searchFrom searchBackward scanLines searchRow rowAt
    simp only [decide_eq_true_eq, Option.map_map, Function.comp_def]

variable {vt paneCols query direction cursor}

theorem row_lt (h : Occurs vt paneCols query o) : o.1 < vt.totalLines := by
  obtain ⟨row, hrow, -⟩ := h
  exact (List.getElem?_eq_some_iff.mp hrow).1

/-- The scan finds the first of the occurrences it takes into account. -/
theorem scanLines_some (hne : query ≠ []) (hcursor : cursor.1 < vt.totalLines)
    (h : scanLines vt paneCols query direction cursor = some o) :
    Occurs vt paneCols query o ∧ Scanned paneCols query direction cursor o ∧
      ∀ o', Occurs vt paneCols query o' → Scanned paneCols query direction cursor o' →
        turn direction vt.totalLines cursor.1 o.1 < turn direction vt.totalLines cursor.1 o'.1 ∨
        (o'.1 = o.1 ∧ (o'.2 = o.2 ∨ direction.Ahead o o')) := by
  obtain ⟨step, hstep, hfound, hbefore⟩ := findSome_range h
  obtain ⟨hlt, hturn⟩ := @turn_rowAt direction _ _ _ hcursor hstep
  obtain ⟨row, hrow, hsearch⟩ := Option.bind_eq_some_iff.mp hfound
  obtain ⟨k, hk, rfl⟩ := Option.map_eq_some_iff.mp hsearch
  have hown : (step = 0) = (rowAt direction vt.totalLines cursor.1 step = cursor.1) :=
    propext ((hturn ▸ @turn_eq_zero direction _ _ _ hcursor hlt :))
  simp only [hown] at hk
  obtain ⟨hat, hscan, hfirst⟩ := searchRow_some hne hk
  refine ⟨⟨row, hrow, hat⟩, hscan, fun o' ho' hscan' => ?_⟩
  obtain ⟨r', k'⟩ := o'
  rcases Nat.lt_trichotomy step (turn direction vt.totalLines cursor.1 r') with
    hlater | heq | hsooner
  · exact .inl (hturn.symm ▸ hlater)
  · have hr' := (@rowAt_turn direction _ _ _ hcursor (row_lt ho')).2
    rw [← heq] at hr'
    replace hr' : rowAt direction vt.totalLines cursor.1 step = r' := hr'
    obtain ⟨row', hrow', hat'⟩ := ho'
    subst hr'
    cases hrow.symm.trans hrow'
    exact .inr ⟨rfl, hfirst k' hat' hscan'⟩
  · -- the scan would have stopped earlier
    exfalso
    have hnone := hbefore _ hsooner
    have hr' := (@rowAt_turn direction _ _ _ hcursor (row_lt ho')).2
    have hzero := @turn_eq_zero direction _ _ _ hcursor (row_lt ho')
    obtain ⟨row', hrow', hat'⟩ := ho'
    replace hr' : rowAt direction vt.totalLines cursor.1
      (turn direction vt.totalLines cursor.1 r') = r' := hr'
    replace hrow' : vt.row r' = some row' := hrow'
    replace hzero : turn direction vt.totalLines cursor.1 r' = 0 ↔ r' = cursor.1 := hzero
    simp only [hr', hrow', Option.bind_some, Option.map_eq_none_iff, hzero] at hnone
    exact searchRow_none hne hnone hat' hscan'

theorem scanLines_none (hne : query ≠ []) (hcursor : cursor.1 < vt.totalLines)
    (h : scanLines vt paneCols query direction cursor = none)
    (ho : Occurs vt paneCols query o) : ¬ Scanned paneCols query direction cursor o := by
  obtain ⟨hlt, hr⟩ := @rowAt_turn direction _ _ _ hcursor (row_lt ho)
  have hzero := @turn_eq_zero direction _ _ _ hcursor (row_lt ho)
  have hstep := List.findSome?_eq_none_iff.mp h _ (List.mem_range.mpr hlt)
  obtain ⟨row, hrow, hat⟩ := ho
  simp only [hr, hrow, Option.bind_some, Option.map_eq_none_iff, hzero] at hstep
  exact searchRow_none hne hstep hat

theorem ahead_irrefl (a : Nat × Nat) : ¬ direction.Ahead a a := by
  cases direction <;> unfold SearchDirection.Ahead <;> dsimp only <;> omega

theorem ahead_asymm {a b : Nat × Nat} (h : direction.Ahead a b) : ¬ direction.Ahead b a := by
  cases direction <;> unfold SearchDirection.Ahead at h ⊢ <;> dsimp only at h ⊢ <;> omega

/-- There is only one next occurrence. -/
theorem IsNext.unique (h : IsNext vt paneCols query direction cursor o)
    (h' : IsNext vt paneCols query direction cursor o') : o = o' := by
  by_contra hne
  have hone := h.first o' h'.occurs h'.other (Ne.symm hne)
  have htwo := h'.first o h.occurs h.other hne
  unfold Sooner at hone htwo
  rcases hone with ⟨ho, ho'⟩ | ⟨hiff, hahead⟩
  · rcases htwo with ⟨-, hnot⟩ | ⟨hiff, -⟩
    · exact hnot ho
    · exact ho' (hiff.mpr ho)
  · rcases htwo with ⟨ho', hnot⟩ | ⟨-, hahead'⟩
    · exact hnot (hiff.mpr ho')
    · exact ahead_asymm hahead hahead'

theorem Sooner.trans {a b c : Nat × Nat} (h : Sooner vt paneCols direction cursor a b)
    (h' : Sooner vt paneCols direction cursor b c) : Sooner vt paneCols direction cursor a c := by
  rcases h with ⟨ha, hb⟩ | ⟨hiff, hahead⟩
  · rcases h' with ⟨hb', -⟩ | ⟨hiff', -⟩
    · exact absurd hb' hb
    · exact .inl ⟨ha, fun hc => hb (hiff'.mpr hc)⟩
  · rcases h' with ⟨hb, hc⟩ | ⟨hiff', hahead'⟩
    · exact .inl ⟨hiff.mpr hb, hc⟩
    · refine .inr ⟨hiff.trans hiff', ?_⟩
      cases direction <;> unfold SearchDirection.Ahead at hahead hahead' ⊢ <;>
        dsimp only at hahead hahead' ⊢ <;> omega

theorem sooner_total {a b : Nat × Nat} (hne : a ≠ b) :
    Sooner vt paneCols direction cursor a b ∨ Sooner vt paneCols direction cursor b a := by
  have hahead : direction.Ahead a b ∨ direction.Ahead b a := by
    rw [Ne, Prod.ext_iff] at hne
    cases direction <;> unfold SearchDirection.Ahead <;> dsimp only <;> omega
  unfold Sooner
  tauto

theorem finite_occurs (hne : query ≠ []) : {o | Occurs vt paneCols query o}.Finite := by
  refine ((Set.finite_lt_nat vt.totalLines).biUnion fun r _ => (Set.finite_lt_nat
    ((vt.row r).elim 0 fun row => (rowText row paneCols).length)).image (Prod.mk r)).subset ?_
  intro o ho
  obtain ⟨row, hrow, hat⟩ := id ho
  refine Set.mem_biUnion (row_lt ho) ⟨o.2, ?_, rfl⟩
  show o.2 < _
  rw [hrow]
  exact lt_of_at hne hat

variable (direction cursor) in
/-- Of finitely many occurrences one comes first. -/
theorem exists_first {s : Set (Nat × Nat)} (hfinite : s.Finite) (hnonempty : s.Nonempty) :
    ∃ o ∈ s, ∀ o' ∈ s, o' ≠ o → Sooner vt paneCols direction cursor o o' := by
  induction s, hfinite using Set.Finite.induction_on with
  | empty => exact absurd hnonempty Set.not_nonempty_empty
  | @insert a s _ _ ih =>
    rcases s.eq_empty_or_nonempty with rfl | hs
    · refine ⟨a, Set.mem_insert _ _, fun o' ho' hdiff => ?_⟩
      exact absurd (ho'.resolve_right (Set.notMem_empty _)) hdiff
    obtain ⟨o, ho, hfirst⟩ := ih hs
    by_cases hao : a = o
    · refine ⟨o, Set.mem_insert_of_mem _ ho, fun o' ho' hdiff => ?_⟩
      exact hfirst o' (ho'.resolve_left fun heq => hdiff (heq.trans hao)) hdiff
    rcases sooner_total hao with hsooner | hsooner
    · refine ⟨a, Set.mem_insert _ _, fun o' ho' hdiff => ?_⟩
      by_cases ho'o : o' = o
      · exact ho'o ▸ hsooner
      · exact hsooner.trans (hfirst o' (ho'.resolve_left hdiff) ho'o)
    · refine ⟨o, Set.mem_insert_of_mem _ ho, fun o' ho' hdiff => ?_⟩
      rcases ho' with rfl | ho'
      · exact hsooner
      · exact hfirst o' ho' hdiff

variable (direction) in
/-- If the query occurs anywhere but at the cursor, there is a next occurrence. -/
theorem exists_next (hne : query ≠ []) (hocc : Occurs vt paneCols query o)
    (hother : placeOf vt paneCols o ≠ cursor) :
    ∃ o', IsNext vt paneCols query direction cursor o' := by
  obtain ⟨o', ⟨hocc', hother'⟩, hfirst⟩ := exists_first direction cursor
    ((finite_occurs hne).subset (Set.sep_subset _ fun o => placeOf vt paneCols o ≠ cursor))
    ⟨o, hocc, hother⟩
  exact ⟨o', hocc', hother', fun o hocc hother hdiff => hfirst o ⟨hocc, hother⟩ hdiff⟩

/-- The scan is at one occurrence before it comes to another. -/
def Earlier (vt : Presented) (direction : SearchDirection) (cursor o o' : Nat × Nat) : Prop :=
  turn direction vt.totalLines cursor.1 o.1 < turn direction vt.totalLines cursor.1 o'.1 ∨
    o.1 = o'.1 ∧ direction.Ahead o o'

/-- The line and the column that the cursor is put on for an occurrence: the index of its scalar for
a column, and the last line of the view for one below it. -/
def focusOf (vt : Presented) (paneRows : Nat) (o : Nat × Nat) : Nat × Nat :=
  (min o.1 (effectiveTotalLines vt paneRows - 1), o.2 % 65536)

/-- The next occurrence is where the cursor is put for an occurrence that the scan takes into
account, and before that it takes none into account. If there is no next one, it takes none into
account at all. -/
structure Reached (vt : Presented) (paneCols paneRows : Nat) (query : Str)
    (direction : SearchDirection) (cursor : Nat × Nat) : Prop where
  next : ∀ next, IsNext vt paneCols query direction cursor next →
    ∃ o, Occurs vt paneCols query o ∧ Scanned paneCols query direction cursor o ∧
      focusOf vt paneRows o = placeOf vt paneCols next ∧
      ∀ o', Occurs vt paneCols query o' → Earlier vt direction cursor o' o →
        ¬ Scanned paneCols query direction cursor o'
  none : (∀ o, Occurs vt paneCols query o → placeOf vt paneCols o = cursor) →
    ∀ o, Occurs vt paneCols query o → ¬ Scanned paneCols query direction cursor o

/-- What the scan finds is the one that it takes into account and comes to first. -/
theorem eq_of_earlier (hne : query ≠ []) (hcursor : cursor.1 < vt.totalLines)
    (h : scanLines vt paneCols query direction cursor = some o) (ho' : Occurs vt paneCols query o')
    (hscan' : Scanned paneCols query direction cursor o')
    (hfirst : ∀ o, Occurs vt paneCols query o → Earlier vt direction cursor o o' →
      ¬ Scanned paneCols query direction cursor o) : o' = o := by
  obtain ⟨hocc, hscan, hleast⟩ := scanLines_some hne hcursor h
  rcases hleast o' ho' hscan' with hturn | ⟨hrow, hsame | hahead⟩
  · exact absurd hscan (hfirst o hocc (.inl hturn))
  · exact Prod.ext hrow hsame
  · exact absurd hscan (hfirst o hocc (.inr ⟨hrow.symm, hahead⟩))

theorem earlier_of_scanLines (hne : query ≠ []) (hcursor : cursor.1 < vt.totalLines)
    (h : scanLines vt paneCols query direction cursor = some o) (ho' : Occurs vt paneCols query o')
    (hearlier : Earlier vt direction cursor o' o) :
    ¬ Scanned paneCols query direction cursor o' := by
  intro hscan'
  obtain ⟨-, -, hleast⟩ := scanLines_some hne hcursor h
  rcases hleast o' ho' hscan' with hturn | ⟨hrow, hsame | hahead⟩
  · rcases hearlier with hturn' | ⟨hrow, -⟩
    · omega
    · rw [hrow] at hturn
      omega
  · rcases hearlier with hturn' | ⟨-, hahead'⟩
    · rw [hrow] at hturn'
      omega
    · exact ahead_irrefl _ (Prod.ext hrow hsame ▸ hahead')
  · rcases hearlier with hturn' | ⟨-, hahead'⟩
    · rw [hrow] at hturn'
      omega
    · exact ahead_asymm hahead' (Prod.ext (show (o.1, o'.2).1 = o'.1 from hrow.symm) rfl ▸ hahead)

theorem currentRow_lt {paneRows : Nat} {state : CopyModeState}
    (hlines : effectiveTotalLines vt paneRows ≠ 0) :
    currentRow vt paneRows state < vt.totalLines := by
  have hle := effectiveTotalLines_le vt paneRows
  unfold currentRow
  dsimp only
  omega

/-- A view that does not fill the pane spans all lines. -/
theorem effectiveTotalLines_large (vt : Presented) (paneRows : Nat) :
    paneRows ≤ effectiveTotalLines vt paneRows ∨
      effectiveTotalLines vt paneRows = vt.totalLines := by
  unfold effectiveTotalLines
  split_ifs
  · exact .inr rfl
  · exact .inl (by omega)

/-- Where the cursor is after a jump. -/
theorem absolute_focus {paneRows : Nat} (hrows : 0 < paneRows) (state : CopyModeState)
    (ho : o.1 < vt.totalLines) :
    absolute vt paneRows
        (state.focusAbsoluteCell (effectiveTotalLines vt paneRows) paneRows o.1 (o.2 % 65536))
        (state.focusAbsoluteCell (effectiveTotalLines vt paneRows) paneRows o.1
          (o.2 % 65536)).cursor =
      focusOf vt paneRows o := by
  refine Prod.ext ?_ rfl
  have hlarge := effectiveTotalLines_large vt paneRows
  show viewStart _ _ (_ - CopyModeState.focusStart _ _ o.1) +
    min (o.1 - CopyModeState.focusStart _ _ o.1) (paneRows - 1) = min o.1 _
  rw [viewStart_focus]
  unfold CopyModeState.focusStart
  omega

/-- A search does what it should just when the next occurrence is where the cursor is put for the
first occurrence that the scan takes into account. -/
theorem findAndFocus_correct (vt : Presented) (paneCols paneRows : Nat) (state : CopyModeState)
    (query : Str) (direction : SearchDirection) (hrows : 0 < paneRows) (hne : query ≠ []) :
    Correct vt paneCols paneRows state query direction ↔
      Reached vt paneCols paneRows query direction
        (currentRow vt paneRows state, state.cursor.1) := by
  have hfind : findAndFocus state paneCols paneRows (some vt) query direction =
      if effectiveTotalLines vt paneRows = 0 then (state, false)
      else
        (scanLines vt paneCols query direction (currentRow vt paneRows state, state.cursor.1)).elim
          (state, false) fun at' => (state.focusAbsoluteCell (effectiveTotalLines vt paneRows)
            paneRows at'.1 (at'.2 % 65536), true) := by
    unfold findAndFocus
    rw [← searchFrom_eq]
    refine (if_neg (by rwa [List.isEmpty_iff])).trans ?_
    dsimp only
    cases searchFrom vt paneCols paneRows state query direction <;> rfl
  unfold Correct
  rw [hfind]
  by_cases hlines : effectiveTotalLines vt paneRows = 0
  · -- there is no line to search
    have hlarge := effectiveTotalLines_large vt paneRows
    have hnone : ∀ o, ¬ Occurs vt paneCols query o := fun o ho => by
      have hlt := row_lt ho
      omega
    rw [if_pos hlines]
    exact iff_of_true (.inr ⟨fun o ho => absurd ho (hnone o), rfl⟩)
      ⟨fun o ho => absurd ho.occurs (hnone o), fun _ o ho => absurd ho (hnone o)⟩
  rw [if_neg hlines]
  have hcursor : (currentRow vt paneRows state, state.cursor.1).1 < vt.totalLines :=
    currentRow_lt hlines
  cases hscan : scanLines vt paneCols query direction
      (currentRow vt paneRows state, state.cursor.1) with
  | some found =>
    obtain ⟨hocc, hscanned, -⟩ := scanLines_some hne hcursor hscan
    have hfocus := absolute_focus hrows state (row_lt hocc)
    constructor
    · rintro (⟨o, ho, -, habs, -⟩ | ⟨-, hout⟩)
      · refine ⟨fun next hnext => ?_, fun hnone => absurd (hnone o ho.occurs) ho.other⟩
        obtain rfl := ho.unique hnext
        exact ⟨found, hocc, hscanned, hfocus.symm.trans habs, fun o' ho' hearlier =>
          earlier_of_scanLines hne hcursor hscan ho' hearlier⟩
      · exact absurd (congrArg Prod.snd hout) (by simp)
    · intro hreached
      by_cases hnone : ∀ o, Occurs vt paneCols query o →
          placeOf vt paneCols o = (currentRow vt paneRows state, state.cursor.1)
      · exact absurd hscanned (hreached.none hnone found hocc)
      push Not at hnone
      obtain ⟨other, hother, hplace⟩ := hnone
      obtain ⟨next, hnext⟩ := exists_next direction hne hother hplace
      obtain ⟨o, ho, hscan', hat, hfirst⟩ := hreached.next next hnext
      obtain rfl := eq_of_earlier hne hcursor hscan ho hscan' hfirst
      have hview : (state.focusAbsoluteCell (effectiveTotalLines vt paneRows) paneRows o.1
          (o.2 % 65536)).cursor.2 < paneRows :=
        (Nat.min_le_right _ _).trans_lt (by omega)
      exact .inl ⟨next, hnext, rfl, hfocus.trans hat, hview⟩
  | none =>
    have hnone : ∀ o, Occurs vt paneCols query o → ¬ Scanned paneCols query direction
        (currentRow vt paneRows state, state.cursor.1) o := fun o ho =>
      scanLines_none hne hcursor hscan ho
    constructor
    · rintro (⟨o, -, hsuccess, -⟩ | ⟨hall, -⟩)
      · cases hsuccess
      · exact ⟨fun next hnext => absurd (hall next hnext.occurs) hnext.other, fun _ => hnone⟩
    · refine fun hreached => .inr ⟨fun o ho => ?_, rfl⟩
      by_contra hother
      obtain ⟨next, hnext⟩ := exists_next direction hne ho hother
      obtain ⟨o', ho', hscan', -⟩ := hreached.next next hnext
      exact hnone o' ho' hscan'

end

/-- One line of two characters. -/
def oneLine : Presented where
  lines := [⟨['a', 'b'].map fun ch => { Cell.empty with ch }, false⟩]
  gridRows := 1
  gridCols := 2
  cursorRow := 0
  rows_le := by decide

/-- A letter of the line occurs once. -/
theorem occurs_oneLine {o : Nat × Nat} {ch : Char} (h : Occurs oneLine 2 [ch] o) :
    (o = (0, 0) ∧ ch = 'a') ∨ (o = (0, 1) ∧ ch = 'b') := by
  obtain ⟨r, k⟩ := o
  have hr : r < 1 := row_lt h
  obtain ⟨row, hrow, hat⟩ := h
  obtain rfl : r = 0 := by omega
  cases hrow
  have hk : k < 2 := lt_of_at (List.cons_ne_nil ch []) hat
  have htext : rowText ⟨['a', 'b'].map fun ch => { Cell.empty with ch }, false⟩ 2 = ['a', 'b'] :=
    rfl
  rw [htext] at hat
  replace hat : [ch] <+: ['a', 'b'].drop k := hat
  match k with
  | 0 =>
    obtain ⟨tail, htail⟩ := hat
    exact .inl ⟨rfl, (List.cons.inj htail).1⟩
  | 1 =>
    obtain ⟨tail, htail⟩ := hat
    exact .inr ⟨rfl, (List.cons.inj htail).1⟩

theorem findAndFocus_correct_sample : Correct oneLine 2 1 .new ['b'] .forward := by
  refine (findAndFocus_correct oneLine 2 1 .new ['b'] .forward (by decide) (by decide)).mpr
    ⟨fun next hnext => ?_, fun hnone => ?_⟩
  · rcases occurs_oneLine hnext.occurs with ⟨-, hch⟩ | ⟨rfl, -⟩
    · exact absurd hch (by decide)
    · refine ⟨(0, 1), hnext.occurs, fun _ => le_rfl, by decide, fun o' ho' hearlier => ?_⟩
      rcases occurs_oneLine ho' with ⟨-, hch⟩ | ⟨rfl, -⟩
      · exact absurd hch (by decide)
      · exact absurd hearlier (by simp [Earlier, SearchDirection.Ahead])
  · exact absurd (hnone (0, 1) ⟨_, rfl, by decide⟩) (by decide)

/-- The search never comes back to the beginning of the cursor's own line. -/
theorem findAndFocus_misses : ¬ ∀ (vt : Presented) (paneCols paneRows : Nat)
    (state : CopyModeState) (query : Str) (direction : SearchDirection), 0 < paneRows →
    query ≠ [] → Correct vt paneCols paneRows state query direction := by
  intro h
  rcases h oneLine 2 1 { CopyModeState.new with cursor := (1, 0) } ['a'] .forward (by decide)
    (by decide) with ⟨o, -, hsuccess, -⟩ | ⟨hnone, -⟩
  · exact absurd hsuccess (by decide)
  · have hplace := hnone (0, 0) ⟨_, rfl, by decide⟩
    exact absurd hplace (by decide)

end Shux.Ui
